import JsOS.Component.DnsClient
import Mathlib.Data.List.ReduceOption

/-! # What becomes of the requests

A request is in the array until its callback has returned. Each move of the client changes the
array in one of four ways: a request is added, is asked for again, is answered, or stays although
its callback threw; what is put into the array by a callback comes after the request that is
answered, so that clearing this one afterwards is the same as clearing it before.
-/

namespace JsOS.Component.Dns

open Net (IP4Address)

namespace DNSClient

/-! ## The array -/

/-- An entry that holds a request splits the waiting requests, and setting it replaces this one. -/
theorem waiting_split {client : DNSClient} {i : Nat} {request : Request}
    (there : client.requests[i]? = some (some request)) :
    ∃ before after, client.waiting = before ++ request :: after ∧
      (client.requests.set i none).reduceOption = before ++ after ∧
      ∀ other, (client.requests.set i (some other)).reduceOption = before ++ other :: after := by
  obtain ⟨inside, held⟩ := List.getElem?_eq_some_iff.mp there
  use (client.requests.take i).reduceOption, (client.requests.drop (i + 1)).reduceOption
  have split : client.requests =
      client.requests.take i ++ some request :: client.requests.drop (i + 1) := by
    rw [← held, List.cons_getElem_drop_succ, List.take_append_drop]
  refine ⟨?_, ?_, fun other => ?_⟩
  · rw [waiting]
    nth_rewrite 1 [split]
    rw [List.reduceOption_append, List.reduceOption_cons_of_some]
  · rw [List.set_eq_take_append_cons_drop, if_pos inside, List.reduceOption_append,
      List.reduceOption_cons_of_none]
  · rw [List.set_eq_take_append_cons_drop, if_pos inside, List.reduceOption_append,
      List.reduceOption_cons_of_some]

/-- The filter after the loop takes no request out. -/
theorem reduceOption_filter (requests : List (Option Request)) :
    (requests.filter (· ≠ none)).reduceOption = requests.reduceOption := by
  induction requests with
  | nil => rfl
  | cons entry requests same =>
    cases entry with
    | none =>
      rw [List.filter_cons_of_neg (by simp), List.reduceOption_cons_of_none, same]
    | some request =>
      rw [List.filter_cons_of_pos (by simp), List.reduceOption_cons_of_some,
        List.reduceOption_cons_of_some, same]

theorem length_le_resolve (client : DNSClient) (call : ResolveCall) :
    client.requests.length ≤ (client.resolve call).requests.length := by
  unfold resolve
  split
  · exact le_rfl
  · split
    · dsimp only
      rw [List.length_append]
      exact Nat.le_add_right _ _
    · exact le_rfl

/-- An entry can be cleared before or after a call of `resolve`. -/
theorem resolve_clear {client : DNSClient} {i : Nat} (inside : i < client.requests.length)
    (call : ResolveCall) : (client.resolve call).clear i = (client.clear i).resolve call := by
  unfold resolve clear
  cases getQuery call.domain (orA call.query) with
  | none => rfl
  | some u8 =>
    dsimp only
    split
    · dsimp only
      rw [List.set_append_left _ _ inside]
    · rfl

theorem foldl_resolve_clear (made : List ResolveCall) {client : DNSClient} {i : Nat}
    (inside : i < client.requests.length) :
    (made.foldl resolve client).clear i = made.foldl resolve (client.clear i) := by
  induction made generalizing client with
  | nil => rfl
  | cons call made same =>
    rw [List.foldl_cons, List.foldl_cons, ← resolve_clear inside]
    exact same (Nat.lt_of_lt_of_le inside (length_le_resolve client call))

/-- The calls of a callback leave the handler where it is. -/
theorem scanning_call (client : DNSClient) (request : Request) (reply : Reply)
    (made : List ResolveCall) (throws : Bool) :
    (client.call request reply made throws).scanning = client.scanning := by
  have kept (calls : List ResolveCall) (before : DNSClient) :
      (calls.foldl resolve before).scanning = before.scanning := by
    induction calls generalizing before with
    | nil => rfl
    | cons call calls same =>
      rw [List.foldl_cons, same]
      unfold resolve
      split
      · rfl
      · split <;> rfl
  rw [call, kept]

/-! ## The bookkeeping -/

theorem Queried.append {log : List Entry} {request : Request} {sent : Nat} {entry : Entry}
    (queried : Queried log request sent) (other : ∀ u8, entry ≠ .sent request.cb u8) :
    Queried (log ++ [entry]) request sent := by
  obtain ⟨u8, query, counted⟩ := queried
  refine ⟨u8, query, ?_⟩
  have different : ¬(entry == .sent request.cb u8) = true := by
    rw [beq_iff_eq]
    exact other u8
  rw [List.count_append, counted, List.count_singleton, if_neg different, Nat.add_zero]

/-- The start: nothing was asked. -/
theorem balanced_start (serverIP : IP4Address) (serverPort : Nat) :
    Balanced { serverIP, serverPort } where
  numbered := by simp
  distinct := List.nodup_nil
  original := by simp [waiting, List.reduceOption]
  queried := by simp [waiting, List.reduceOption]
  unreturned := by simp [waiting, List.reduceOption]
  returned := by simp
  known := by simp
  known' := by simp

namespace Balanced

variable {client client' : DNSClient} {before after : List Request} {request : Request}

theorem cb_lt (balanced : client.Balanced) (waits : request ∈ client.waiting) :
    request.cb < client.registered.length := by
  obtain ⟨k, inside, there⟩ := List.getElem_of_mem (balanced.original request waits)
  have number := balanced.numbered k _ (by rw [List.getElem?_eq_getElem inside, there])
  dsimp only at number
  omega

/-- An entry that is neither a query nor the return of a callback changes nothing. -/
theorem noted (balanced : client.Balanced) {entry : Entry}
    (waits' : client'.waiting = client.waiting) (registered' : client'.registered = client.registered)
    (logged : client'.log = client.log ++ [entry]) (unsent : ∀ id u8, entry ≠ .sent id u8)
    (unreturning : ∀ id, returnedTo id entry = false)
    (known' : ∀ id reply threw, entry = .called id reply threw → id < client.registered.length) :
    client'.Balanced := by
  have counted (id : Nat) : client'.log.countP (returnedTo id) =
      client.log.countP (returnedTo id) := by
    rw [logged, List.countP_append, List.countP_singleton, unreturning id]
    rfl
  constructor
  · rw [registered']
    exact balanced.numbered
  · rw [waits']
    exact balanced.distinct
  · rw [waits', registered']
    exact balanced.original
  · intro held waits
    rw [waits'] at waits
    obtain ⟨sent, queried, balance⟩ := balanced.queried held waits
    rw [logged]
    exact ⟨sent, queried.append fun u8 => unsent held.cb u8, balance⟩
  · intro held waits
    rw [waits'] at waits
    rw [counted]
    exact balanced.unreturned held waits
  · intro id inside gone
    rw [registered'] at inside
    rw [waits'] at gone
    rw [counted]
    exact balanced.returned id inside gone
  · intro id query among
    rw [logged, List.mem_append, List.mem_singleton] at among
    rw [registered']
    rcases among with earlier | now
    · exact balanced.known id query earlier
    · exact absurd now.symm (unsent id query)
  · intro id reply threw among
    rw [logged, List.mem_append, List.mem_singleton] at among
    rw [registered']
    rcases among with earlier | now
    · exact balanced.known' id reply threw earlier
    · exact known' id reply threw now.symm

/-- A request whose callback returns leaves the array. -/
theorem finished (balanced : client.Balanced) {reply : Reply}
    (waits : client.waiting = before ++ request :: after)
    (waits' : client'.waiting = before ++ after)
    (registered' : client'.registered = client.registered)
    (logged : client'.log = client.log ++ [.called request.cb reply false]) :
    client'.Balanced := by
  have distinct := balanced.distinct
  rw [waits, List.map_append, List.map_cons] at distinct
  have fresh : request.cb ∉ (before ++ after).map Request.cb := by
    rw [List.map_append]
    exact (List.nodup_middle.mp distinct).notMem
  have stays {held : Request} (among : held ∈ before ++ after) : held ∈ client.waiting := by
    rw [waits]
    rw [List.mem_append] at among ⊢
    exact among.imp_right (List.mem_cons_of_mem _)
  have differs {held : Request} (among : held ∈ before ++ after) : held.cb ≠ request.cb := by
    intro same
    apply fresh
    rw [← same]
    exact List.mem_map_of_mem among
  have counted (id : Nat) : client'.log.countP (returnedTo id) =
      client.log.countP (returnedTo id) + if request.cb = id then 1 else 0 := by
    rw [logged, List.countP_append, List.countP_singleton]
    by_cases same : request.cb = id <;> simp [returnedTo, same]
  constructor
  · rw [registered']
    exact balanced.numbered
  · rw [waits', List.map_append]
    exact (List.nodup_middle.mp distinct).of_cons
  · intro held among
    rw [waits'] at among
    rw [registered']
    exact balanced.original held (stays among)
  · intro held among
    rw [waits'] at among
    obtain ⟨sent, queried, balance⟩ := balanced.queried held (stays among)
    rw [logged]
    refine ⟨sent, queried.append fun u8 same => ?_, balance⟩
    cases same
  · intro held among
    rw [waits'] at among
    rw [counted, if_neg (differs among).symm, balanced.unreturned held (stays among)]
  · intro id inside gone
    rw [registered'] at inside
    rw [waits'] at gone
    rw [counted]
    by_cases same : request.cb = id
    · rw [if_pos same, ← same, balanced.unreturned request (by rw [waits]; simp)]
    · have absent : id ∉ client.waiting.map Request.cb := by
        rw [waits, List.map_append, List.map_cons, List.mem_append, List.mem_cons]
        rw [List.map_append, List.mem_append] at gone
        rintro (left | now | right)
        · exact gone (Or.inl left)
        · exact same now.symm
        · exact gone (Or.inr right)
      rw [if_neg same, balanced.returned id inside absent]
  · intro id query among
    rw [logged, List.mem_append, List.mem_singleton] at among
    rw [registered']
    rcases among with earlier | now
    · exact balanced.known id query earlier
    · cases now
  · intro id reply' threw among
    rw [logged, List.mem_append, List.mem_singleton] at among
    rw [registered']
    rcases among with earlier | now
    · exact balanced.known' id reply' threw earlier
    · cases now
      exact balanced.cb_lt (by rw [waits]; simp)

/-- A request is asked for again. -/
theorem retried (balanced : client.Balanced) {u8 : List UInt8}
    (waits : client.waiting = before ++ request :: after)
    (waits' : client'.waiting = before ++ { request with retry := request.retry - 1 } :: after)
    (registered' : client'.registered = client.registered) (left : 0 < request.retry)
    (query : getQuery request.domain (orA request.query) = some u8)
    (logged : client'.log = client.log ++ [.sent request.cb u8]) : client'.Balanced := by
  have callbacks : client'.waiting.map Request.cb = client.waiting.map Request.cb := by
    rw [waits, waits', List.map_append, List.map_append, List.map_cons, List.map_cons]
  have distinct := balanced.distinct
  rw [waits, List.map_append, List.map_cons] at distinct
  have fresh : request.cb ∉ (before ++ after).map Request.cb := by
    rw [List.map_append]
    exact (List.nodup_middle.mp distinct).notMem
  have among {held : Request} (waiting : held ∈ client'.waiting) :
      held = { request with retry := request.retry - 1 } ∨
        (held ∈ client.waiting ∧ held.cb ≠ request.cb) := by
    rw [waits', List.mem_append, List.mem_cons] at waiting
    have other (there : held ∈ before ++ after) : held ∈ client.waiting ∧
        held.cb ≠ request.cb := by
      constructor
      · rw [waits]
        rw [List.mem_append] at there ⊢
        exact there.imp_right (List.mem_cons_of_mem _)
      · intro same
        apply fresh
        rw [← same]
        exact List.mem_map_of_mem there
    rcases waiting with left | now | right
    · exact Or.inr (other (List.mem_append_left _ left))
    · exact Or.inl now
    · exact Or.inr (other (List.mem_append_right _ right))
  have there : request ∈ client.waiting := by
    rw [waits]
    simp
  have counted (id : Nat) : client'.log.countP (returnedTo id) =
      client.log.countP (returnedTo id) := by
    rw [logged, List.countP_append, List.countP_singleton]
    rfl
  constructor
  · rw [registered']
    exact balanced.numbered
  · rw [callbacks]
    exact balanced.distinct
  · intro held waiting
    rw [registered']
    rcases among waiting with rfl | ⟨waits, _⟩
    · exact balanced.original request there
    · exact balanced.original held waits
  · intro held waiting
    rcases among waiting with rfl | ⟨waits, differs⟩
    · obtain ⟨sent, ⟨u8', query', count⟩, balance⟩ := balanced.queried request there
      rw [query] at query'
      cases query'
      refine ⟨sent + 1, ⟨u8, query, ?_⟩, by dsimp only; omega⟩
      rw [logged, List.count_append, count, List.count_singleton, if_pos (by simp)]
    · obtain ⟨sent, queried, balance⟩ := balanced.queried held waits
      rw [logged]
      refine ⟨sent, queried.append fun u8' same => ?_, balance⟩
      exact differs (Entry.sent.inj same).1.symm
  · intro held waiting
    rw [counted]
    rcases among waiting with rfl | ⟨waits, _⟩
    · exact balanced.unreturned request there
    · exact balanced.unreturned held waits
  · intro id inside gone
    rw [registered'] at inside
    rw [callbacks] at gone
    rw [counted]
    exact balanced.returned id inside gone
  · intro id query' among'
    rw [logged, List.mem_append, List.mem_singleton] at among'
    rw [registered']
    rcases among' with earlier | now
    · exact balanced.known id query' earlier
    · cases now
      exact balanced.cb_lt there
  · intro id reply threw among'
    rw [logged, List.mem_append, List.mem_singleton] at among'
    rw [registered']
    rcases among' with earlier | now
    · exact balanced.known' id reply threw earlier
    · cases now

/-- A request is added. -/
theorem resolved (balanced : client.Balanced) (call : ResolveCall) :
    (client.resolve call).Balanced := by
  unfold resolve
  cases query : getQuery call.domain (orA call.query) with
  | none => exact balanced
  | some u8 =>
    dsimp only
    split
    · have waits : (client.requests ++
          [some (⟨call.domain, 3, call.query, client.registered.length⟩ : Request)]).reduceOption =
            client.waiting ++ [⟨call.domain, 3, call.query, client.registered.length⟩] := by
        rw [List.reduceOption_append]
        rfl
      have counted (id : Nat) : (client.log ++ [Entry.sent client.registered.length u8]).countP
          (returnedTo id) = client.log.countP (returnedTo id) := by
        rw [List.countP_append, List.countP_singleton]
        rfl
      have unasked : client.log.count (Entry.sent client.registered.length u8) = 0 := by
        rw [List.count_eq_zero]
        intro among
        have earlier := balanced.known _ _ among
        omega
      constructor
      · intro id request there
        dsimp only at there
        by_cases inside : id < client.registered.length
        · rw [List.getElem?_append_left inside] at there
          exact balanced.numbered id request there
        · rw [List.getElem?_append_right (by omega), List.getElem?_singleton] at there
          split at there
          · cases there
            dsimp only
            omega
          · cases there
      · change (List.map _ (List.reduceOption _)).Nodup
        rw [waits, List.map_append, List.nodup_append]
        refine ⟨balanced.distinct, List.nodup_singleton _, ?_⟩
        intro id earlier id' now same
        obtain ⟨held, waiting, rfl⟩ := List.mem_map.mp earlier
        have number : id' = client.registered.length := by
          rw [List.map_singleton, List.mem_singleton] at now
          exact now
        have inside := balanced.cb_lt waiting
        omega
      · intro held waiting
        change held ∈ List.reduceOption _ at waiting
        rw [waits, List.mem_append, List.mem_singleton] at waiting
        apply List.mem_append.mpr
        rcases waiting with earlier | rfl
        · exact Or.inl (balanced.original held earlier)
        · exact Or.inr (List.mem_singleton_self _)
      · intro held waiting
        change held ∈ List.reduceOption _ at waiting
        rw [waits, List.mem_append, List.mem_singleton] at waiting
        rcases waiting with earlier | rfl
        · obtain ⟨sent, queried, balance⟩ := balanced.queried held earlier
          refine ⟨sent, queried.append fun u8' same => ?_, balance⟩
          have inside := balanced.cb_lt earlier
          have number := (Entry.sent.inj same).1
          omega
        · refine ⟨1, ⟨u8, query, ?_⟩, rfl⟩
          rw [List.count_append, unasked, List.count_singleton, if_pos (by simp)]
      · intro held waiting
        change held ∈ List.reduceOption _ at waiting
        rw [waits, List.mem_append, List.mem_singleton] at waiting
        dsimp only
        rw [counted]
        rcases waiting with earlier | rfl
        · exact balanced.unreturned held earlier
        · rw [List.countP_eq_zero]
          intro entry among returns
          cases entry with
          | called id reply threw =>
            have inside := balanced.known' id reply threw among
            have number : id = client.registered.length := by
              simp only [returnedTo, Bool.and_eq_true, beq_iff_eq] at returns
              exact returns.1
            omega
          | received ip port u8 => cases returns
          | sent id query => cases returns
      · intro id inside gone
        change id ∉ List.map _ (List.reduceOption _) at gone
        rw [waits, List.map_append, List.mem_append, List.map_singleton, List.mem_singleton] at gone
        dsimp only at inside ⊢
        rw [List.length_append, List.length_singleton] at inside
        rw [counted]
        apply balanced.returned id
        · have other : id ≠ client.registered.length := fun same => gone (Or.inr same)
          omega
        · exact fun waiting => gone (Or.inl waiting)
      · intro id query' among
        dsimp only at among ⊢
        rw [List.length_append, List.length_singleton]
        rw [List.mem_append, List.mem_singleton] at among
        rcases among with earlier | now
        · have inside := balanced.known id query' earlier
          omega
        · cases now
          omega
      · intro id reply threw among
        dsimp only at among ⊢
        rw [List.length_append, List.length_singleton]
        rw [List.mem_append, List.mem_singleton] at among
        rcases among with earlier | now
        · have inside := balanced.known' id reply threw earlier
          omega
        · cases now
    · exact balanced

end Balanced

/-! ## The reasons of the calls -/

/-- What a callback is called for. -/
def Reason (stack : Nat) (client : DNSClient) (request : Request) : Reply → Prop
  | .response data => request.domain = data.hostname ∧
      ∃ ip port u8, .received ip port u8 ∈ client.log ∧ parseResponse u8 stack = some (some data)
  | .error _ => request.retry = 0

/-- The calls that an entry may be have their reasons. -/
def Explained (stack : Nat) (client : DNSClient) (entry : Entry) : Prop :=
  ∀ id reply threw, entry = .called id reply threw →
    ∃ request ∈ client.waiting, request.cb = id ∧ Reason stack client request reply

theorem explained_of_not_called (stack : Nat) (client : DNSClient) {entry : Entry}
    (uncalled : ∀ id reply threw, entry ≠ .called id reply threw) :
    Explained stack client entry := by
  intro id reply threw is
  exact absurd is (uncalled id reply threw)

variable {stack : Nat} {client client' : DNSClient} {entry : Entry}

theorem Answered.noted (answered : client.Answered stack) (balanced : client.Balanced)
    (keeps : ∀ request ∈ client.registered, request ∈ client'.registered)
    (logged : client'.log = client.log ++ [entry]) (explained : Explained stack client entry) :
    client'.Answered stack := by
  intro id data threw among
  rw [logged, List.mem_append, List.mem_singleton] at among
  have later {ip port u8} (arrived : .received ip port u8 ∈ client.log) :
      .received ip port u8 ∈ client'.log := by
    rw [logged]
    exact List.mem_append_left _ arrived
  rcases among with earlier | now
  · obtain ⟨request, registered, number, domain, ip, port, u8, arrived, parsed⟩ :=
      answered id data threw earlier
    exact ⟨request, keeps request registered, number, domain, ip, port, u8, later arrived, parsed⟩
  · obtain ⟨request, waits, number, domain, ip, port, u8, arrived, parsed⟩ :=
      explained id _ threw now.symm
    exact ⟨_, keeps _ (balanced.original request waits), number, domain, ip, port, u8,
      later arrived, parsed⟩

theorem Failed.noted (failed : client.Failed) (balanced : client.Balanced)
    (keeps : ∀ request ∈ client.registered, request ∈ client'.registered)
    (logged : client'.log = client.log ++ [entry]) (explained : Explained stack client entry) :
    client'.Failed := by
  intro past future id message threw split
  rw [logged] at split
  rcases List.eq_nil_or_concat future with rfl | ⟨future, last, rfl⟩
  · obtain ⟨rfl, now⟩ := List.append_inj' split rfl
    obtain ⟨request, waits, number, given⟩ := explained id _ threw (List.cons.inj now).1
    obtain ⟨sent, queried, balance⟩ := balanced.queried request waits
    have all : sent = 4 := by
      have none : request.retry = 0 := given
      omega
    rw [all] at queried
    exact ⟨_, keeps _ (balanced.original request waits), number, queried⟩
  · rw [List.concat_eq_append, ← List.cons_append, ← List.append_assoc] at split
    obtain ⟨earlier, _⟩ := List.append_inj' split rfl
    obtain ⟨request, registered, number, queried⟩ := failed past future id message threw earlier
    exact ⟨request, keeps request registered, number, queried⟩

/-! ## Moves -/

/-- A datagram was read as the response. -/
def Read (stack : Nat) (client : DNSClient) (data : Response) : Prop :=
  ∃ ip port u8, .received ip port u8 ∈ client.log ∧ parseResponse u8 stack = some (some data)

theorem Read.mono {data : Response} (read : Read stack client data)
    (keeps : ∀ entry ∈ client.log, entry ∈ client'.log) : Read stack client' data := by
  obtain ⟨ip, port, u8, arrived, parsed⟩ := read
  exact ⟨ip, port, u8, keeps _ arrived, parsed⟩

/-- What every move keeps. -/
structure Invariant (stack : Nat) (client : DNSClient) : Prop where
  balanced : client.Balanced
  answered : client.Answered stack
  failed : client.Failed
  reading : ∀ data i, client.scanning = some (.message data i) → Read stack client data

namespace Invariant

theorem start (stack : Nat) (serverIP : IP4Address) (serverPort : Nat) :
    Invariant stack { serverIP, serverPort } where
  balanced := balanced_start serverIP serverPort
  answered := by simp [Answered]
  failed := by simp [Failed]
  reading := by simp

/-- An entry is added to what happened. -/
theorem noted (invariant : Invariant stack client) (balanced' : client'.Balanced)
    (keeps : ∀ request ∈ client.registered, request ∈ client'.registered)
    (logged : client'.log = client.log ++ [entry]) (explained : Explained stack client entry)
    (scanning' : client'.scanning = client.scanning) : Invariant stack client' where
  balanced := balanced'
  answered := invariant.answered.noted invariant.balanced keeps logged explained
  failed := invariant.failed.noted invariant.balanced keeps logged explained
  reading := by
    intro data i reading
    rw [scanning'] at reading
    apply (invariant.reading data i reading).mono
    intro earlier among
    rw [logged]
    exact List.mem_append_left _ among

/-- The handler goes on. -/
theorem goesOn (invariant : Invariant stack client) {scanning : Option Scanning}
    (reading : ∀ data i, scanning = some (.message data i) → Read stack client data) :
    Invariant stack { client with scanning } where
  balanced := ⟨invariant.balanced.numbered, invariant.balanced.distinct,
    invariant.balanced.original, invariant.balanced.queried, invariant.balanced.unreturned,
    invariant.balanced.returned, invariant.balanced.known, invariant.balanced.known'⟩
  answered := invariant.answered
  failed := invariant.failed
  reading := reading

/-- The handler ends. -/
theorem ends (invariant : Invariant stack client) :
    Invariant stack { client with scanning := none } := by
  apply invariant.goesOn
  intro data i reading
  cases reading

theorem resolved (invariant : Invariant stack client) (call : ResolveCall) :
    Invariant stack (client.resolve call) := by
  have balanced := invariant.balanced.resolved call
  unfold resolve at balanced ⊢
  cases query : getQuery call.domain (orA call.query) with
  | none => exact invariant
  | some u8 =>
    rw [query] at balanced
    dsimp only at balanced ⊢
    split
    · rename_i sends
      rw [if_pos sends] at balanced
      refine invariant.noted balanced ?_ rfl ?_ rfl
      · intro request registered
        exact List.mem_append_left _ registered
      · apply explained_of_not_called
        intro id reply threw is
        cases is
    · exact invariant

theorem foldl_resolved (made : List ResolveCall) (invariant : Invariant stack client) :
    Invariant stack (made.foldl resolve client) := by
  induction made generalizing client with
  | nil => exact invariant
  | cons call made kept => exact kept (invariant.resolved call)

variable {request : Request} {i : Nat} {reply : Reply}

/-- A callback that throws leaves its request where it is. -/
theorem threw (invariant : Invariant stack client) (waits : request ∈ client.waiting)
    (reason : Reason stack client request reply) (made : List ResolveCall) :
    Invariant stack { client.call request reply made true with scanning := none } := by
  apply ends
  apply foldl_resolved
  have explained : Explained stack client (.called request.cb reply true) := by
    intro id reply' threw is
    cases is
    exact ⟨request, waits, rfl, reason⟩
  refine invariant.noted ?_ (fun _ registered => registered) rfl explained rfl
  refine invariant.balanced.noted rfl rfl rfl (fun id u8 is => ?_) (fun id => ?_) ?_
  · cases is
  · simp [returnedTo]
  · intro id reply' threw is
    cases is
    exact invariant.balanced.cb_lt waits

/-- A callback that returns has its request cleared. -/
theorem returned (invariant : Invariant stack client)
    (there : client.requests[i]? = some (some request))
    (reason : Reason stack client request reply) (made : List ResolveCall) :
    Invariant stack ((client.call request reply made false).clear i) := by
  obtain ⟨before, after, waits, cleared, _⟩ := waiting_split there
  obtain ⟨inside, _⟩ := List.getElem?_eq_some_iff.mp there
  have explained : Explained stack client (.called request.cb reply false) := by
    intro id reply' threw is
    cases is
    exact ⟨request, by rw [waits]; simp, rfl, reason⟩
  have earlier : (client.call request reply made false).clear i = made.foldl resolve
      (DNSClient.clear { client with log := client.log ++ [.called request.cb reply false] } i) :=
    foldl_resolve_clear made inside
  rw [earlier]
  apply foldl_resolved
  refine invariant.noted ?_ (fun _ registered => registered) rfl explained rfl
  exact invariant.balanced.finished waits cleared rfl rfl

end Invariant

/-- A round of `onmessage` keeps the invariant. -/
theorem invariant_messageRound (invariant : Invariant stack client) {data : Response} {i : Nat}
    (scanning : client.scanning = some (.message data i)) (made : List ResolveCall)
    (throws : Bool) : Invariant stack (client.messageRound data i made throws) := by
  have read := invariant.reading data i scanning
  have onwards {other : DNSClient} (kept : Invariant stack other)
      (still : other.scanning = some (.message data i)) :
      Invariant stack { other with scanning := some (.message data (i + 1)) } := by
    apply kept.goesOn
    intro data' i' reading
    cases reading
    exact kept.reading data i still
  unfold messageRound
  split
  · exact invariant.ends
  · exact onwards invariant scanning
  · rename_i request there
    split
    · rename_i domain
      have reason : Reason stack client request (.response data) := ⟨domain, read⟩
      cases throws with
      | true =>
        obtain ⟨before, after, waits, _⟩ := waiting_split there
        exact invariant.threw (by rw [waits]; simp) reason made
      | false =>
        apply onwards (invariant.returned there reason made)
        rw [clear, scanning_call, scanning]
    · exact onwards invariant scanning

/-- A round of the interval handler keeps the invariant. -/
theorem invariant_intervalRound (invariant : Invariant stack client) (i : Nat)
    (made : List ResolveCall) (throws sends : Bool) :
    Invariant stack (client.intervalRound i made throws sends) := by
  have onwards {other : DNSClient} (kept : Invariant stack other) :
      Invariant stack { other with scanning := some (.interval (i + 1)) } := by
    apply kept.goesOn
    intro data j reading
    cases reading
  unfold intervalRound
  split
  · -- The filter after the loop.
    have ended := invariant.ends
    have waits : (client.requests.filter (· ≠ none)).reduceOption = client.waiting :=
      reduceOption_filter client.requests
    refine ⟨?_, ended.answered, ended.failed, ended.reading⟩
    constructor
    · exact ended.balanced.numbered
    · change (List.map _ (List.reduceOption _)).Nodup
      rw [waits]
      exact ended.balanced.distinct
    · intro request waiting
      change request ∈ List.reduceOption _ at waiting
      rw [waits] at waiting
      exact ended.balanced.original request waiting
    · intro request waiting
      change request ∈ List.reduceOption _ at waiting
      rw [waits] at waiting
      exact ended.balanced.queried request waiting
    · intro request waiting
      change request ∈ List.reduceOption _ at waiting
      rw [waits] at waiting
      exact ended.balanced.unreturned request waiting
    · intro id inside gone
      change id ∉ List.map _ (List.reduceOption _) at gone
      rw [waits] at gone
      exact ended.balanced.returned id inside gone
    · exact ended.balanced.known
    · exact ended.balanced.known'
  · exact onwards invariant
  · rename_i request there
    obtain ⟨before, after, waits, _, replaced⟩ := waiting_split there
    split
    · rename_i left
      split
      · exact invariant.ends
      · rename_i u8 query
        split
        · have explained : Explained stack client (.sent request.cb u8) :=
            explained_of_not_called stack client fun id reply threw is => by cases is
          have asked : Invariant stack { client with
              requests := client.requests.set i
                (some { request with retry := request.retry - 1 })
              log := client.log ++ [.sent request.cb u8] } := by
            refine invariant.noted ?_ (fun _ registered => registered) rfl explained rfl
            exact invariant.balanced.retried waits (replaced _) rfl left query rfl
          exact onwards asked
        · exact invariant.ends
    · have spent (message : String) : Reason stack client request (.error message) := by
        change request.retry = 0
        omega
      cases throws with
      | true => exact invariant.threw (by rw [waits]; simp) (spent _) made
      | false => exact onwards (invariant.returned there (spent _) made)

theorem invariant_onmessage (invariant : Invariant stack client) (ip : IP4Address) (port : Nat)
    (u8 : List UInt8) : Invariant stack (client.onmessage stack ip port u8) := by
  have explained : Explained stack client (.received ip port u8) :=
    explained_of_not_called stack client fun id reply threw is => by cases is
  have arrived : Invariant stack { client with log := client.log ++ [.received ip port u8] } := by
    refine invariant.noted ?_ (fun _ registered => registered) rfl explained rfl
    refine invariant.balanced.noted rfl rfl rfl (fun id u8' is => ?_) (fun id => rfl) ?_
    · cases is
    · intro id reply threw is
      cases is
  unfold onmessage
  dsimp only
  split
  · rename_i data parsed
    apply arrived.goesOn
    intro data' i reading
    cases reading
    exact ⟨ip, port, u8, List.mem_append_right _ (List.mem_singleton_self _), parsed⟩
  · exact arrived

/-- A move keeps the invariant. -/
theorem invariant_step (invariant : Invariant stack client) (move : Move) :
    Invariant stack (client.step stack move) := by
  unfold step
  split
  · exact invariant.resolved _
  · exact invariant_onmessage invariant _ _ _
  · apply invariant.goesOn
    intro data i reading
    cases reading
  · rename_i scanning
    exact invariant_messageRound invariant scanning _ _
  · exact invariant_intervalRound invariant _ _ _ _
  · exact invariant

/-! ## Runs -/

/-- In what happened, a call that threw is the only difference between the calls of a callback and
those that returned. -/
theorem countP_calledTo {log : List Entry} {id : Nat}
    (calm : ∀ reply, .called id reply true ∉ log) :
    log.countP (calledTo id) = log.countP (returnedTo id) := by
  apply List.countP_congr
  intro entry among
  cases entry with
  | called cb reply threw =>
    cases threw with
    | false => simp [calledTo, returnedTo]
    | true =>
      have other : cb ≠ id := by
        rintro rfl
        exact calm reply among
      simp [calledTo, returnedTo, other]
  | received ip port u8 => rfl
  | sent cb query => rfl

theorem Balanced.countP_le (balanced : client.Balanced) (id : Nat) :
    client.log.countP (returnedTo id) ≤ 1 := by
  by_cases inside : id < client.registered.length
  · by_cases waits : id ∈ client.waiting.map Request.cb
    · obtain ⟨request, waiting, rfl⟩ := List.mem_map.mp waits
      rw [balanced.unreturned request waiting]
      exact Nat.zero_le 1
    · exact (balanced.returned id inside waits).le
  · have uncalled : client.log.countP (returnedTo id) = 0 := by
      rw [List.countP_eq_zero]
      intro entry among returns
      cases entry with
      | called cb reply threw =>
        simp only [returnedTo, Bool.and_eq_true, beq_iff_eq] at returns
        have earlier := balanced.known' cb reply threw among
        omega
      | received ip port u8 => cases returns
      | sent cb query => cases returns
    omega

theorem Balanced.accounted (balanced : client.Balanced) : client.Accounted := by
  intro request registered
  obtain ⟨k, inside, there⟩ := List.getElem_of_mem registered
  have number := balanced.numbered k request (by rw [List.getElem?_eq_getElem inside, there])
  by_cases waits : request.cb ∈ client.waiting.map Request.cb
  · obtain ⟨held, waiting, same⟩ := List.mem_map.mp waits
    exact Or.inr ⟨held, waiting, same⟩
  · left
    have once := balanced.returned request.cb (by omega) waits
    obtain ⟨entry, among, returns⟩ := List.countP_pos_iff.mp (by rw [once]; exact Nat.one_pos)
    cases entry with
    | called cb reply threw =>
      simp only [returnedTo, Bool.and_eq_true, beq_iff_eq, Bool.not_eq_true'] at returns
      rw [← returns.1]
      rw [returns.2] at among
      exact ⟨reply, among⟩
    | received ip port u8 => cases returns
    | sent cb query => cases returns

/-- **Requests.** In every run a callback that never throws is called at most once; a call with a
response is for the response's domain, and one with an error comes after four queries; and a
request whose callback has not returned is in the array. -/
theorem requests_accounted (stack : Nat) (serverIP : IP4Address) (serverPort : Nat)
    (moves : List Move) :
    (moves.foldl (step stack) { serverIP, serverPort }).CalledOnce ∧
      (moves.foldl (step stack) { serverIP, serverPort }).Answered stack ∧
      (moves.foldl (step stack) { serverIP, serverPort }).Failed ∧
      (moves.foldl (step stack) { serverIP, serverPort }).Accounted := by
  have invariant := Transition.run_invariant_of_keeps (Invariant stack)
    (fun _ move kept => invariant_step kept move) (Invariant.start stack serverIP serverPort) moves
  unfold Transition.run at invariant
  refine ⟨?_, invariant.answered, invariant.failed, invariant.balanced.accounted⟩
  intro id calm
  rw [countP_calledTo calm]
  exact invariant.balanced.countP_le id

/-- A response about the mail servers of `a`, without answers. -/
def mailResponse : List UInt8 :=
  [0x33, 0x22, 0x81, 0x80, 0, 1, 0, 0, 0, 0, 0, 0, 1, 0x61, 0, 0, 0x0f, 0, 1]

/-- The address of `a` is asked for, and the response comes from some address. -/
def mailRun (ip : IP4Address) (port : Nat) : List Move :=
  [.resolve ⟨['a'], "A", true⟩, .datagram ip port mailResponse, .round [] false true]

/-- A request for the address of `a` is answered by a response about its mail servers, be it from
another address or from the server; and a callback that throws is called again for the next
response. -/
theorem mailResponse_answers :
    ¬Genuine 10 ((mailRun ⟨6, 6, 6, 6⟩ 6666).foldl (step 10) {}) ∧
      ¬Genuine 10 ((mailRun ⟨8, 8, 8, 8⟩ 53).foldl (step 10) {}) ∧
      ([.resolve ⟨['a'], "A", true⟩, .datagram ⟨8, 8, 8, 8⟩ 53 mailResponse,
        .round [] true true, .datagram ⟨8, 8, 8, 8⟩ 53 mailResponse, .round [] false true].foldl
          (step 10) {}).log.countP (calledTo 0) = 2 := by
  refine ⟨fun genuine => ?_, fun genuine => ?_, by decide +kernel⟩
  · obtain ⟨_, _, _, u8, arrived, _⟩ := genuine 0 ⟨['a'], []⟩ false (by decide +kernel)
    have happened : ((mailRun ⟨6, 6, 6, 6⟩ 6666).foldl (step 10) {}).log =
        [.sent 0 [0x33, 0x22, 1, 0, 0, 1, 0, 0, 0, 0, 0, 0, 1, 0x61, 0, 0, 1, 0, 1],
          .received ⟨6, 6, 6, 6⟩ 6666 mailResponse, .called 0 (.response ⟨['a'], []⟩) false] := by
      decide +kernel
    have server : ((mailRun ⟨6, 6, 6, 6⟩ 6666).foldl (step 10) {}).serverIP = ⟨8, 8, 8, 8⟩ := by
      decide +kernel
    rw [happened, server] at arrived
    simp at arrived
  · obtain ⟨request, registered, _, u8, arrived, _, question⟩ :=
      genuine 0 ⟨['a'], []⟩ false (by decide +kernel)
    have happened : ((mailRun ⟨8, 8, 8, 8⟩ 53).foldl (step 10) {}).log =
        [.sent 0 [0x33, 0x22, 1, 0, 0, 1, 0, 0, 0, 0, 0, 0, 1, 0x61, 0, 0, 1, 0, 1],
          .received ⟨8, 8, 8, 8⟩ 53 mailResponse, .called 0 (.response ⟨['a'], []⟩) false] := by
      decide +kernel
    have requests : ((mailRun ⟨8, 8, 8, 8⟩ 53).foldl (step 10) {}).registered =
        [⟨['a'], 3, "A", 0⟩] := by
      decide +kernel
    have asked : (readQuestion mailResponse 10).map (fun question => (question.1, question.2.1)) =
        some (['a'], 15) := by
      decide +kernel
    have type : queries (orA "A") = 1 := by decide +kernel
    rw [happened] at arrived
    rw [requests, List.mem_singleton] at registered
    have same : u8 = mailResponse := by
      simp only [List.mem_cons, reduceCtorEq, Entry.received.injEq, List.not_mem_nil, or_false,
        false_or] at arrived
      exact arrived.2.2
    rw [same, asked, registered, type] at question
    cases question

end DNSClient

end JsOS.Component.Dns
