import JsOS.Component.DnsClient
import JsOS.Net.Ip4AddressText

/-! # The lookup of hostnames

`lookup` of the module `dns`: it answers for `localhost` itself, and otherwise asks the resolver
and goes through the records that come back. The loop over the records returns after the first
address also when all of them are asked for, and then nothing is answered.
-/

namespace JsOS.Modules.Dns

open Component.Dns (DnsRecord getQuery orA)
open NumericString (Units units)
open Net.IP4Address (point)

/-- `SystemError`: the message, the code and the call that failed. -/
structure SystemError where
  message : String
  errcode : String
  call : String
  deriving DecidableEq, Repr

def BADFAMILY : String := "EBADFAMILY"

def NODATA : String := "ENODATA"

/-- The error of `throwIPv6Err`. -/
def ipv6Error : SystemError := ⟨"JsOS doesn't support IPv6", BADFAMILY, ""⟩

/-- The error when no record has an address. -/
def noDataError : SystemError := ⟨"dns query failed", NODATA, "$$.dns.resolve"⟩

/-- The options. Those that are not given are 0, empty or false. -/
structure Options where
  family : ℕ := 0
  query : String := ""
  all : Bool := false
  addrOnly : Bool := false
  deriving DecidableEq, Repr

/-- An element of the list of addresses. -/
inductive Item where
  | string (address : Units)
  | object (address : Units) (family : ℕ)
  deriving DecidableEq, Repr

/-- What the callback is called with: an error of the module, one of the resolver, an address or a
list of them. -/
inductive Answer where
  | error (err : SystemError)
  | failed (err : String)
  | address (addr : Units) (family : ℕ)
  | addresses (items : List Item)
  deriving DecidableEq, Repr

/-- The answer is an error. -/
def Answer.isError : Answer → Bool
  | .error _ => true
  | .failed _ => true
  | .address _ _ => false
  | .addresses _ => false

/-- What comes back from the resolver. -/
inductive Reply where
  | err (message : String)
  | data (results : List DnsRecord)
  deriving DecidableEq, Repr

/-- What a call does: the calls of its callback, and whether it throws. -/
structure Effect where
  calls : List Answer := []
  throws : Bool := false
  deriving DecidableEq, Repr

/-- `if (cb) cb(…)`. -/
def callback (cb : Bool) (answer : Answer) : Effect :=
  if cb then { calls := [answer] } else {}

theorem mem_callback {cb : Bool} {answer given : Answer}
    (called : answer ∈ (callback cb given).calls) : answer = given := by
  cases cb with
  | false => exact absurd called List.not_mem_nil
  | true => exact List.mem_singleton.mp called

/-- `throwIPv6Err`. -/
def throwIPv6Err (cb : Bool) : Effect :=
  if cb then { calls := [.error ipv6Error] } else { throws := true }

/-- An address in the list. -/
def item (opts : Options) (address : Units) : Item :=
  if opts.addrOnly then .string address else .object address 4

/-- `address.join('.')`. -/
def joinAddress (address : List ℕ) : Units :=
  [point].intercalate (address.map NumericString.ofNat)

/-- The loop over the records, with the addresses that it has, and what comes after it. Only the
records of addresses have an `address`. -/
def resultLoop (opts : Options) (cb : Bool) : List DnsRecord → List Item → Effect
  | [], ret =>
      if ret.length = 0 then callback cb (.error noDataError) else callback cb (.addresses ret)
  | .cname _ _ :: results, ret => resultLoop opts cb results ret
  | .a _ address _ :: _, _ =>
      if !opts.all then callback cb (.address (joinAddress address) 4)
      -- the address is pushed to `ret`, and then the function returns
      else {}

/-- The callback that `lookup` passes to the resolver. -/
def onResolved (opts : Options) (cb : Bool) : Reply → Effect
  | .err message => callback cb (.failed message)
  | .data results => resultLoop opts cb results []

/-- `$$.dns.resolve`: it throws when there is no query for the hostname, or when the query cannot
be sent and no reply comes. -/
def resolve (hostname : List Char) (query : String) (reply : Option Reply)
    (resolved : Reply → Effect) : Effect :=
  if (getQuery hostname (orA query)).isNone then { throws := true }
  else
    match reply with
    | none => { throws := true }
    | some reply => resolved reply

def localhost : List Char := "localhost".toList

def loopback : Units := units "127.0.0.1"

/-- `lookup`. -/
def lookup (hostname : List Char) (opts : Options) (cb : Bool) (reply : Option Reply) : Effect :=
  if opts.family = 6 then throwIPv6Err cb
  else if hostname = localhost ∧ orA opts.query = "A" then
    if !opts.all then callback cb (.address loopback 4)
    else callback cb (.addresses [item opts loopback])
  else resolve hostname (orA opts.query) reply (onResolved opts cb)

/-- The second argument of `exports.lookup`. -/
inductive OptionsArgument where
  | absent
  | family (number : ℕ)
  | object (opts : Options)

def OptionsArgument.options : OptionsArgument → Options
  | .absent => {}
  | .family number => { family := number }
  | .object opts => opts

/-- `exports.lookup`. -/
def lookupExport (hostname : List Char) (opts : OptionsArgument) (cb : Bool)
    (reply : Option Reply) : Effect :=
  lookup hostname opts.options cb reply

/-! ## What is to be answered -/

/-- The address of a record. -/
def recordAddress : DnsRecord → Option Units
  | .a _ address _ => some (joinAddress address)
  | .cname _ _ => none

/-- The addresses of the records, in order. -/
def addressesOf (results : List DnsRecord) : List Units := results.filterMap recordAddress

/-- `lookup` answers itself. -/
def AnswersItself (hostname : List Char) (opts : Options) : Prop :=
  opts.family = 6 ∨ hostname = localhost ∧ orA opts.query = "A"

/-- The answer for some addresses: all of them or the first one, and an error without any. -/
def Answer.IsFor (answer : Answer) (opts : Options) (found : List Units) : Prop :=
  match found with
  | [] => answer.isError = true
  | first :: _ =>
      if opts.all then answer = .addresses (found.map (item opts)) else answer = .address first 4

/-- What the callback is to be called with: an error for another family or when the resolver
fails, and otherwise the addresses that were found. -/
def Answer.Expected (answer : Answer) (hostname : List Char) (opts : Options)
    (reply : Option Reply) : Prop :=
  if opts.family = 6 then answer.isError = true
  else if hostname = localhost ∧ orA opts.query = "A" then answer.IsFor opts [loopback]
  else
    match reply with
    | some (.data results) => answer.IsFor opts (addressesOf results)
    | _ => answer.isError = true

/-- The callback is called exactly once, and with what it is to be called with. -/
def AnswersOnce (hostname : List Char) (opts : OptionsArgument) (reply : Option Reply) : Prop :=
  ∃ answer, lookupExport hostname opts true reply = { calls := [answer] } ∧
    answer.Expected hostname opts.options reply

/-- Calls that nothing answers: the resolver takes no query, or all the addresses are asked for
and there is one. -/
def Unanswered (hostname : List Char) (opts : Options) (reply : Option Reply) : Prop :=
  ¬AnswersItself hostname opts ∧
    (getQuery hostname (orA opts.query) = none ∨ reply = none ∨
      opts.all = true ∧ ∃ results, reply = some (.data results) ∧ addressesOf results ≠ [])

/-! ## What is answered -/

/-- **The loop over the records** answers nothing if all the addresses are asked for and there is
one, and otherwise what it is to answer. -/
theorem resultLoop_cases (opts : Options) (results : List DnsRecord) :
    (opts.all = true ∧ addressesOf results ≠ [] ∧ resultLoop opts true results [] = {}) ∨
      ¬(opts.all = true ∧ addressesOf results ≠ []) ∧
        ∃ answer, resultLoop opts true results [] = { calls := [answer] } ∧
          answer.IsFor opts (addressesOf results) := by
  induction results with
  | nil => exact .inr ⟨fun both => both.2 rfl, _, rfl, rfl⟩
  | cons result results ih =>
      cases result with
      | cname hostname name => exact ih
      | a hostname address ttl =>
          rw [resultLoop, addressesOf, List.filterMap_cons]
          dsimp only [recordAddress]
          cases all : opts.all with
          | false =>
              refine .inr ⟨fun both => absurd both.1 Bool.false_ne_true, _, rfl, ?_⟩
              rw [Answer.IsFor, all]
              rfl
          | true => exact .inl ⟨rfl, List.cons_ne_nil _ _, rfl⟩

theorem orA_orA (query : String) : orA (orA query) = orA query := by
  unfold orA
  by_cases empty : query = ""
  · rw [if_pos empty]
    rfl
  · rw [if_neg empty, if_neg empty]

/-- A query that is made and sent is answered by the reply. -/
theorem resolve_eq {hostname : List Char} {query : String} {u8 : List UInt8}
    (made : getQuery hostname (orA query) = some u8) (reply : Reply) (resolved : Reply → Effect) :
    resolve hostname (orA query) (some reply) resolved = resolved reply := by
  unfold resolve
  rw [orA_orA, made]
  rfl

/-- A query that is not made or not sent throws. -/
theorem resolve_throws {hostname : List Char} {query : String} {reply : Option Reply}
    (refused : getQuery hostname (orA query) = none ∨ reply = none) (resolved : Reply → Effect) :
    resolve hostname (orA query) reply resolved = { throws := true } := by
  unfold resolve
  rw [orA_orA]
  rcases refused with unmade | rfl
  · rw [unmade]
    rfl
  · exact ite_self _

/-- **A lookup answers exactly once, but for hostnames that the resolver does not take and lists
of addresses that are not empty.** -/
theorem answersOnce_iff (hostname : List Char) (argument : OptionsArgument)
    (reply : Option Reply) :
    AnswersOnce hostname argument reply ↔ ¬Unanswered hostname argument.options reply := by
  unfold AnswersOnce Unanswered AnswersItself lookupExport lookup Answer.Expected
  generalize argument.options = opts
  by_cases ipv6 : opts.family = 6
  · rw [if_pos ipv6]
    refine iff_of_true ⟨_, rfl, ?_⟩ fun both => both.1 (.inl ipv6)
    rw [if_pos ipv6]
    rfl
  by_cases loop : hostname = localhost ∧ orA opts.query = "A"
  · rw [if_neg ipv6, if_pos loop]
    refine iff_of_true ?_ fun both => both.1 (.inr loop)
    cases all : opts.all with
    | false =>
        refine ⟨_, rfl, ?_⟩
        rw [if_neg ipv6, if_pos loop, Answer.IsFor, all]
        rfl
    | true =>
        refine ⟨_, rfl, ?_⟩
        rw [if_neg ipv6, if_pos loop, Answer.IsFor, all]
        rfl
  have asked : ¬(opts.family = 6 ∨ hostname = localhost ∧ orA opts.query = "A") :=
    not_or.mpr ⟨ipv6, loop⟩
  rw [if_neg ipv6, if_neg loop, and_iff_right asked]
  by_cases refused : getQuery hostname (orA opts.query) = none ∨ reply = none
  · rw [resolve_throws refused]
    refine iff_of_false ?_ fun answered => answered (or_assoc.mp (.inl refused))
    rintro ⟨answer, called, -⟩
    cases called
  obtain ⟨made, sent⟩ := not_or.mp refused
  obtain ⟨u8, made⟩ := Option.ne_none_iff_exists'.mp made
  obtain ⟨reply, rfl⟩ := Option.ne_none_iff_exists'.mp sent
  rw [resolve_eq made, ← or_assoc, or_iff_right refused]
  cases reply with
  | err message =>
      refine iff_of_true ⟨_, rfl, ?_⟩ ?_
      · rw [if_neg ipv6, if_neg loop]
        rfl
      · rintro ⟨-, results, same, -⟩
        cases same
  | data results =>
      obtain ⟨all, some, silent⟩ | ⟨answers, answer, called, right⟩ := resultLoop_cases opts results
      · refine iff_of_false ?_ fun answered => answered ⟨all, results, rfl, some⟩
        rintro ⟨answer, called, -⟩
        rw [onResolved, silent] at called
        cases called
      · refine iff_of_true ⟨answer, called, ?_⟩ ?_
        · rw [if_neg ipv6, if_neg loop]
          exact right
        · rintro ⟨all, others, same, some⟩
          cases same
          exact answers ⟨all, some⟩

/-- All the addresses of a host that has one are never answered. -/
theorem lookupExport_silent :
    lookupExport ['a'] (.object { all := true }) true
        (some (.data [.a ['a'] [10, 0, 0, 1] 60])) = {} ∧
      ¬AnswersOnce ['a'] (.object { all := true }) (some (.data [.a ['a'] [10, 0, 0, 1] 60])) := by
  have silent : lookupExport ['a'] (.object { all := true }) true
      (some (.data [.a ['a'] [10, 0, 0, 1] 60])) = {} := by decide +kernel
  refine ⟨silent, ?_⟩
  rintro ⟨answer, called, -⟩
  rw [silent] at called
  cases called

end JsOS.Modules.Dns
