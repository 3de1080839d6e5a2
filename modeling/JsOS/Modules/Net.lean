import JsOS.Component.DnsMessage
import JsOS.Modules.DnsLookup

/-! # Connecting to a host

`Socket.connect` opens a connection when `isIP` takes the host for an address, and looks it up
otherwise. `isIPv4` returns from its loop in the first round, so that it checks one field of four,
and `isIPv6` takes six fields between colons for an address. What a socket can open is what
`IP4Address.parse` converts.
-/

namespace JsOS.Modules.Net

open Binary64 (Number)
open Component.Dns (DnsRecord Response parseResponse)
open JsOS.Net (IP4Address)
open JsOS.Net.IP4Address (parse parseField point)
open Modules.Dns (Answer Reply lookupExport)
open NumericString (Units isDigit isWhiteSpace toNumber trim units)

/-- `parseInt(string, 10)` is a number: a digit stands behind white space and a sign. -/
def parsesInt (string : Units) : Bool :=
  let literal := string.dropWhile isWhiteSpace
  let digits :=
    match literal with
    | [] => []
    | sign :: rest => if sign = 43 ∨ sign = 45 then rest else literal
  digits.head?.any isDigit

/-- `isIPv4`. The loop over the fields returns after the first one. -/
def isIPv4 (ip : Units) : Bool :=
  let arr := ip.splitOn point
  if arr.length ≠ 4 then false
  else
    match arr with
    | [] => false
    | item :: _ => if !parsesInt item || 3 < item.length then false else true

/-- The colon. -/
def colon : BitVec 16 := 58

/-- `isIPv6`. The pattern in its loop matches at the start of any field. -/
def isIPv6 (ip : Units) : Bool :=
  if 45 < ip.length then false
  else if (ip.splitOn colon).length ≠ 6 then false
  else true

/-- `isIP`. -/
def isIP (ip : Units) : ℕ := if isIPv4 ip then 4 else if isIPv6 ip then 6 else 0

/-- What `connect` does: the addresses passed to `open` of the TCP socket, and the hosts that are
looked up. -/
structure Connecting where
  opens : List Units := []
  lookups : List Units := []
  deriving DecidableEq

/-- The address that the callback of the lookup opens. -/
def openedFor : Answer → Option Units
  | .address addr _ => some addr
  | _ => none

/-- A host as the text of a name. -/
def characters (host : Units) : List Char := host.map fun unit => Char.ofNat unit.toNat

/-- `host || 'localhost'`. -/
def orLocalhost (host : Units) : Units := if host = [] then units "localhost" else host

/-- `Socket.connect`, with what comes back if the host is looked up. Without a port there is an
error. -/
def connect (port : ℕ) (hostOpt : Units) (reply : Option Reply) : Connecting :=
  if port = 0 then {}
  else
    let host := orLocalhost hostOpt
    if isIP host ≠ 0 then { opens := [host] }
    else
      { opens := (lookupExport (characters host) .absent true reply).calls.filterMap openedFor
        lookups := [host] }

/-! ## Which hosts are addresses -/

/-- Four fields, of which the first is short and starts with a number. -/
def LooksLikeV4 (host : Units) : Prop :=
  (host.splitOn point).length = 4 ∧
    ∀ first ∈ (host.splitOn point).head?, parsesInt first = true ∧ first.length ≤ 3

/-- Six fields between colons, in a text that is not too long. -/
def LooksLikeV6 (host : Units) : Prop := host.length ≤ 45 ∧ (host.splitOn colon).length = 6

/-- Four fields, each of which converts to a whole number from 0 to 255. -/
def Converts (host : Units) : Prop :=
  ((trim host).splitOn point).length = 4 ∧
    ∀ field ∈ (trim host).splitOn point, ∃ byte : BitVec 8, toNumber field = .finite byte.toNat

/-- **The hosts on which the layers disagree**: those that look like an address and do not convert,
and those that convert but for their first field do not look like one. -/
def Mismatched (host : Units) : Prop :=
  (LooksLikeV4 host ∨ LooksLikeV6 host) ∧ ¬Converts host ∨ Converts host ∧ ¬LooksLikeV4 host

theorem isIPv4_iff (host : Units) : isIPv4 host = true ↔ LooksLikeV4 host := by
  unfold isIPv4 LooksLikeV4
  dsimp only
  by_cases four : (host.splitOn point).length = 4
  · rw [if_neg (not_not.mpr four), and_iff_right four]
    obtain ⟨first, second, third, fourth, fields⟩ := List.length_eq_four.mp four
    rw [fields]
    simp
  · rw [if_pos four]
    exact iff_of_false Bool.false_ne_true fun both => four both.1

theorem isIPv6_iff (host : Units) : isIPv6 host = true ↔ LooksLikeV6 host := by
  unfold isIPv6 LooksLikeV6
  simp

theorem isIP_eq_four_iff (host : Units) : isIP host = 4 ↔ LooksLikeV4 host := by
  rw [← isIPv4_iff, isIP]
  cases isIPv4 host with
  | true => exact iff_of_true rfl rfl
  | false =>
      refine iff_of_false ?_ Bool.false_ne_true
      cases isIPv6 host <;> decide

theorem isIP_eq_zero_iff (host : Units) :
    isIP host = 0 ↔ ¬(LooksLikeV4 host ∨ LooksLikeV6 host) := by
  rw [← isIPv4_iff, ← isIPv6_iff, isIP]
  cases isIPv4 host <;> cases isIPv6 host <;> decide

/-- **The addresses that a socket can open.** -/
theorem parse_isSome_iff (host : Units) : (parse (.string host)).isSome ↔ Converts host := by
  rw [Option.isSome_iff_exists]
  constructor
  · rintro ⟨ip, parsed⟩
    obtain ⟨a, b, c, d, split, first, second, third, fourth⟩ :=
      IP4Address.parse_eq_some.mp parsed
    refine ⟨by rw [split]; rfl, ?_⟩
    rw [split]
    intro field among
    simp only [List.mem_cons, List.not_mem_nil, or_false] at among
    rcases among with rfl | rfl | rfl | rfl
    · exact ⟨_, IP4Address.parseField_eq_some.mp first⟩
    · exact ⟨_, IP4Address.parseField_eq_some.mp second⟩
    · exact ⟨_, IP4Address.parseField_eq_some.mp third⟩
    · exact ⟨_, IP4Address.parseField_eq_some.mp fourth⟩
  · rintro ⟨four, converts⟩
    obtain ⟨a, b, c, d, split⟩ := List.length_eq_four.mp four
    rw [split] at converts
    obtain ⟨byteA, first⟩ := converts a (by simp)
    obtain ⟨byteB, second⟩ := converts b (by simp)
    obtain ⟨byteC, third⟩ := converts c (by simp)
    obtain ⟨byteD, fourth⟩ := converts d (by simp)
    exact ⟨⟨byteA, byteB, byteC, byteD⟩, IP4Address.parse_eq_some.mpr ⟨a, b, c, d, split,
      IP4Address.parseField_eq_some.mpr first, IP4Address.parseField_eq_some.mpr second,
      IP4Address.parseField_eq_some.mpr third, IP4Address.parseField_eq_some.mpr fourth⟩⟩

/-! ## Addresses from a lookup -/

/-- What a resolver may send back: an error, or the results of a response. -/
def Genuine : Option Reply → Prop
  | some (.data results) =>
      ∃ u8 stack hostname, parseResponse u8 stack = some (some ⟨hostname, results⟩)
  | _ => True

theorem joinAddress_eq {address : List ℕ} (four : address.length = 4)
    (bytes : ∀ byte ∈ address, byte < 256) :
    ∃ ip : IP4Address, Dns.joinAddress address = ip.toString := by
  obtain ⟨a, b, c, d, rfl⟩ := List.length_eq_four.mp four
  have small (byte : ℕ) (among : byte ∈ [a, b, c, d]) : (BitVec.ofNat 8 byte).toNat = byte := by
    rw [BitVec.toNat_ofNat, Nat.mod_eq_of_lt (bytes byte among)]
  refine ⟨⟨BitVec.ofNat 8 a, BitVec.ofNat 8 b, BitVec.ofNat 8 c, BitVec.ofNat 8 d⟩, ?_⟩
  rw [IP4Address.toString, small a (by simp), small b (by simp), small c (by simp),
    small d (by simp), Dns.joinAddress]
  simp [IP4Address.joined]

theorem parse_toString (ip : IP4Address) : (parse (.string ip.toString)).isSome := by
  rw [(IP4Address.dottedDecimal_toString ip).parse]
  rfl

/-- The address of an answer can be opened. -/
theorem parse_of_recordAddress {record : DnsRecord} (four : record.FourBytes) {address : Units}
    (found : Dns.recordAddress record = some address) : (parse (.string address)).isSome := by
  cases record with
  | cname hostname name => cases found
  | a hostname bytes ttl =>
      obtain rfl := Option.some.inj found
      obtain ⟨ip, same⟩ := joinAddress_eq four.1 four.2
      rw [same]
      exact parse_toString ip

theorem parse_loopback : (parse (.string Dns.loopback)).isSome := by
  have same : Dns.loopback = IP4Address.toString ⟨127, 0, 0, 1⟩ := by
    have high : NumericString.ofNat 127 = [49, 50, 55] := by simp [NumericString.ofNat]
    have zero : NumericString.ofNat 0 = [48] := by simp [NumericString.ofNat]
    have one : NumericString.ofNat 1 = [49] := by simp [NumericString.ofNat]
    change Dns.loopback = IP4Address.joined (NumericString.ofNat 127) (NumericString.ofNat 0)
      (NumericString.ofNat 0) (NumericString.ofNat 1)
    rw [high, zero, one]
    decide +kernel
  rw [same]
  exact parse_toString _

/-- An address that the loop over the records answers with is one of theirs. -/
theorem recordAddress_of_resultLoop {opts : Dns.Options} {cb : Bool} {results : List DnsRecord}
    {address : Units} {family : ℕ}
    (answered : .address address family ∈ (Dns.resultLoop opts cb results []).calls) :
    ∃ record ∈ results, Dns.recordAddress record = some address := by
  induction results with
  | nil => cases Dns.mem_callback answered
  | cons record results ih =>
      cases record with
      | cname hostname name =>
          obtain ⟨record, listed, found⟩ := ih answered
          exact ⟨record, List.mem_cons_of_mem _ listed, found⟩
      | a hostname bytes ttl =>
          refine ⟨_, List.mem_cons_self, ?_⟩
          rw [Dns.resultLoop] at answered
          by_cases first : (!opts.all) = true
          · rw [if_pos first] at answered
            cases Dns.mem_callback answered
            rfl
          · rw [if_neg first] at answered
            exact absurd answered List.not_mem_nil

/-- **An address that a lookup answers with can be opened.** -/
theorem parse_of_lookup {host : List Char} {reply : Option Reply} (genuine : Genuine reply)
    {address : Units} {family : ℕ}
    (answered : .address address family ∈ (lookupExport host .absent true reply).calls) :
    (parse (.string address)).isSome := by
  rw [lookupExport, Dns.lookup, if_neg (by decide)] at answered
  by_cases itself : host = Dns.localhost ∧ Component.Dns.orA Dns.OptionsArgument.absent.options.query = "A"
  · rw [if_pos itself, if_pos (by decide)] at answered
    cases Dns.mem_callback answered
    exact parse_loopback
  · rw [if_neg itself] at answered
    by_cases refused : Component.Dns.getQuery host
        (Component.Dns.orA Dns.OptionsArgument.absent.options.query) = none ∨ reply = none
    · rw [Dns.resolve_throws refused] at answered
      exact absurd answered List.not_mem_nil
    · obtain ⟨made, sent⟩ := not_or.mp refused
      obtain ⟨u8, made⟩ := Option.ne_none_iff_exists'.mp made
      obtain ⟨reply, rfl⟩ := Option.ne_none_iff_exists'.mp sent
      rw [Dns.resolve_eq made] at answered
      cases reply with
      | err message => cases Dns.mem_callback answered
      | data results =>
          obtain ⟨bytes, stack, hostname, parsed⟩ := genuine
          obtain ⟨record, listed, found⟩ := recordAddress_of_resultLoop answered
          exact parse_of_recordAddress
            (Component.Dns.fourBytes_of_parseResponse parsed record listed) found

/-! ## The layers agree -/

/-- `isIP` takes a host for an address exactly if it is one, and a call of `connect` either opens
that address or looks the host up, and opens only what is an address. -/
def AgreesAcrossLayers (host : Units) : Prop :=
  (isIP host = 4 ↔ (parse (.string host)).isSome) ∧
    ∀ port ≠ 0, ∀ reply, Genuine reply →
      ((connect port host reply).opens = [host] ∧ (connect port host reply).lookups = [] ∨
          (connect port host reply).lookups = [orLocalhost host]) ∧
        ∀ address ∈ (connect port host reply).opens, (parse (.string address)).isSome

/-- The host that is given, when it is taken for an address. -/
theorem connect_of_isIP {port : ℕ} (some : port ≠ 0) {host : Units} (isAddress : isIP host ≠ 0)
    (reply : Option Reply) : connect port host reply = { opens := [host] } := by
  have filled : host ≠ [] := by
    rintro rfl
    exact isAddress (by decide +kernel)
  rw [connect, if_neg some, orLocalhost, if_neg filled]
  exact if_pos isAddress

theorem connect_of_not_isIP {port : ℕ} (some : port ≠ 0) {host : Units} (isName : isIP host = 0)
    (reply : Option Reply) :
    connect port host reply =
      { opens := (lookupExport (characters (orLocalhost host)) .absent true reply).calls.filterMap
          openedFor
        lookups := [orLocalhost host] } := by
  have name : isIP (orLocalhost host) = 0 := by
    unfold orLocalhost
    by_cases empty : host = []
    · rw [if_pos empty]
      decide +kernel
    · rw [if_neg empty]
      exact isName
  rw [connect, if_neg some]
  exact if_neg (not_not.mpr name)

/-- **The layers agree on a host, but for the mismatched ones.** -/
theorem agreesAcrossLayers_iff (host : Units) : AgreesAcrossLayers host ↔ ¬Mismatched host := by
  unfold AgreesAcrossLayers Mismatched
  rw [isIP_eq_four_iff, parse_isSome_iff]
  constructor
  · rintro ⟨same, connects⟩ (⟨looks, other⟩ | ⟨converts, other⟩)
    · rcases looks with v4 | v6
      · exact other (same.mp v4)
      · have isAddress : isIP host ≠ 0 :=
          (isIP_eq_zero_iff host).not.mpr (not_not.mpr (.inr v6))
        have opened := (connects 80 (by decide) none trivial).2 host (by
          rw [connect_of_isIP (by decide) isAddress]
          exact List.mem_singleton_self host)
        exact other ((parse_isSome_iff host).mp opened)
    · exact other (same.mpr converts)
  · intro matched
    obtain ⟨looking, converting⟩ := not_or.mp matched
    refine ⟨⟨fun v4 => ?_, fun converts => ?_⟩, fun port some reply genuine => ?_⟩
    · by_contra other
      exact looking ⟨.inl v4, other⟩
    · by_contra other
      exact converting ⟨converts, other⟩
    · by_cases isName : isIP host = 0
      · rw [connect_of_not_isIP some isName]
        refine ⟨.inr rfl, fun address opened => ?_⟩
        obtain ⟨answer, called, same⟩ := List.mem_filterMap.mp opened
        cases answer with
        | address addr family =>
            cases same
            exact parse_of_lookup genuine called
        | error err => cases same
        | failed err => cases same
        | addresses items => cases same
      · rw [connect_of_isIP some isName]
        refine ⟨.inl ⟨rfl, rfl⟩, fun address opened => ?_⟩
        rw [List.mem_singleton.mp opened, parse_isSome_iff]
        by_contra other
        exact looking ⟨not_not.mp ((isIP_eq_zero_iff host).not.mp isName), other⟩

/-- A fourth field that is no number passes for an address, and is opened. -/
theorem letterField_not_agrees :
    isIP (units "1.2.3.x") = 4 ∧ parse (.string (units "1.2.3.x")) = none ∧
      connect 80 (units "1.2.3.x") none = { opens := [units "1.2.3.x"] } ∧
      ¬AgreesAcrossLayers (units "1.2.3.x") := by
  have isAddress : isIP (units "1.2.3.x") = 4 := by decide +kernel
  have unparsed : parse (.string (units "1.2.3.x")) = none := by
    rw [← Option.not_isSome_iff_eq_none, parse_isSome_iff]
    rintro ⟨-, converts⟩
    have letter : toNumber (units "x") = .nan := by rfl
    obtain ⟨byte, number⟩ := converts (units "x") (by decide +kernel)
    rw [letter] at number
    cases number
  refine ⟨isAddress, unparsed, connect_of_isIP (by decide) (by rw [isAddress]; decide) none, ?_⟩
  rintro ⟨same, -⟩
  have parsed := same.mp isAddress
  rw [unparsed] at parsed
  cases parsed

end JsOS.Modules.Net
