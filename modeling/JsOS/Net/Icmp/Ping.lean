import JsOS.Library.Run
import JsOS.Net.Icmp.Echo
import Mathlib.Data.List.AList

/-! # Pings

The methods of `Ping` and the dispatch of echo replies in `icmp`. A ping object is
identified by its position in the list of all pings made so far. Its identifier is the
number of the object in 16 bits, so that it comes around; the map from identifiers to pings
takes the first ping of an identifier, and `close` removes the entry of an identifier
whatever ping it is for. Replies go to the right ping as long as no ping sends or is closed
while another one with its identifier is open (`dispatch_exact`).
-/

namespace JsOS.Net.Icmp

open Tcp (Bytes)

/-- `createPingBuffer`. -/
def createPingBuffer (size : Nat) : Bytes := (List.range size).map fun i => .ofNat (0x61 + i % 26)

/-- `defaultPingData`. -/
def defaultPingData : Bytes := createPingBuffer 56

/-- A `Ping`. `isOpen` is not in the source: a request has been transmitted since the ping
was made or last closed. -/
structure Ping where
  pingId : BitVec 16
  nextSeq : Nat := 0
  data : Bytes := defaultPingData
  isOpen : Bool := false
  deriving DecidableEq, Repr

/-- A ping object, by its position in the list of all of them. -/
abbrev PingId := Nat

/-- A call of `onreply`, if it is set, with its arguments. -/
structure Reply where
  ping : PingId
  srcIP : IP4Address
  seq : BitVec 16
  deriving DecidableEq, Repr

/-- All pings, `nextPingId` and `pingListeners`, with the requests transmitted and the
replies reported so far. -/
structure Pings (Interface : Type) where
  pings : List Ping := []
  nextPingId : Nat := 1
  listeners : AList fun _ : BitVec 16 => PingId := ∅
  requests : List (PingId × Transmit Interface) := []
  replies : List Reply := []

/-- `_receive`: whether the data is that of the ping. -/
def Ping.accepts (ping : Ping) (u8 : Bytes) (dataOffset : Nat) : Bool :=
  (u8.length : Int) - dataOffset = ping.data.length &&
    (List.range ping.data.length).all fun i => u8[dataOffset + i]? = ping.data[i]?

namespace Pings

variable {Interface : Type}

/-- The constructor. -/
def create (st : Pings Interface) : Pings Interface :=
  { st with
    pings := st.pings ++ [{ pingId := BitVec.ofNat 16 st.nextPingId }]
    nextPingId := st.nextPingId + 1 }

/-- `send`, with the sequence number it returns. The address is what `IP4Address.parse`
makes of the argument; without one an error is thrown. -/
def send [DecidableEq Interface] (table : Route.Table Interface) (destIP : Option IP4Address)
    (id : PingId) (ping : Ping) (st : Pings Interface) : Pings Interface × Option Nat :=
  match destIP with
  | none => (st, none)
  | some destIP =>
      let seq := ping.nextSeq
      let ping := { ping with nextSeq := if 0xffff < seq + 1 then 0 else seq + 1 }
      match Route.lookup table destIP none with
      | none => ({ st with pings := st.pings.set id ping }, some seq)
      | some routingEntry =>
          let listeners :=
            if (st.listeners.lookup ping.pingId).isSome then st.listeners
            else st.listeners.insert ping.pingId id
          let request : Transmit Interface :=
            ⟨routingEntry.intf, destIP, routingEntry.gateway, ICMP_TYPE_ECHO_REQUEST, 0,
              headerValueEcho ping.pingId (BitVec.ofNat 16 seq), ping.data⟩
          ({ st with
            pings := st.pings.set id { ping with isOpen := true }
            listeners
            requests := st.requests ++ [(id, request)] }, some seq)

/-- `close`. -/
def close (id : PingId) (ping : Ping) (st : Pings Interface) : Pings Interface :=
  { st with
    pings := st.pings.set id { ping with isOpen := false }
    listeners := st.listeners.erase ping.pingId }

/-- `handleEchoReply`. -/
def handleEchoReply (view : U8View) (srcIP : IP4Address) (u8 : Bytes) (headerOffset : Nat)
    (st : Pings Interface) : Pings Interface :=
  match getEchoRequestIdentifier view u8 headerOffset,
    getEchoRequestSequence view u8 headerOffset with
  | some pingId, some seq =>
      match st.listeners.lookup pingId with
      | none => st
      | some id =>
          if st.pings[id]?.any fun ping => ping.accepts u8 (headerOffset + headerLength) then
            { st with replies := st.replies ++ [⟨id, srcIP, seq⟩] }
          else st
  | _, _ => st

/-- `receive`, without what requests do, which leave the pings alone. -/
def receive (view : U8View) (srcIP : IP4Address) (u8 : Bytes) (headerOffset : Nat)
    (st : Pings Interface) : Pings Interface :=
  if getType u8 headerOffset = some ICMP_TYPE_ECHO_REPLY then
    st.handleEchoReply view srcIP u8 headerOffset
  else st

/-! ## Runs -/

/-- A call of a method, or a packet that the interface received. -/
inductive Action (Interface : Type) where
  | create
  | send (table : Route.Table Interface) (destIP : Option IP4Address) (id : PingId)
  | close (id : PingId)
  | receive (srcIP : IP4Address) (u8 : Bytes) (headerOffset : Nat)

/-- What an action does. -/
def step [DecidableEq Interface] (view : U8View) (st : Pings Interface) : Action Interface → Pings Interface
  | .create => st.create
  | .send table destIP id =>
      match st.pings[id]? with
      | none => st
      | some ping => (st.send table destIP id ping).1
  | .close id =>
      match st.pings[id]? with
      | none => st
      | some ping => st.close id ping
  | .receive srcIP u8 headerOffset => st.receive view srcIP u8 headerOffset

/-- **Replies reach the ping that asked.** A reply with the identifier and the data of a request
that an open ping has sent is reported to this ping, and to no other. -/
def Dispatches (view : U8View) (st : Pings Interface) : Prop :=
  ∀ id ping request, st.pings[id]? = some ping → ping.isOpen → (id, request) ∈ st.requests →
    ∀ srcIP u8 headerOffset seq,
      getType u8 headerOffset = some ICMP_TYPE_ECHO_REPLY →
      getEchoRequestIdentifier view u8 headerOffset =
        some (request.headerValue.extractLsb' 16 16) →
      getEchoRequestSequence view u8 headerOffset = some seq →
      u8.drop (headerOffset + headerLength) = request.u8data →
      (st.receive view srcIP u8 headerOffset).replies = st.replies ++ [⟨id, srcIP, seq⟩]

/-- Another ping with the same identifier, made a multiple of `2 ^ 16` constructions earlier or
later, is open. -/
def OtherOpen (st : Pings Interface) (id : Nat) : Prop :=
  ∃ (other : Nat) (ping : Ping), other ≠ id ∧ other % 2 ^ 16 = id % 2 ^ 16 ∧ st.pings[other]? = some ping ∧
    ping.isOpen

/-- A ping transmits a request, or is closed, while another one with its identifier is open. -/
def Collides [DecidableEq Interface] (st : Pings Interface) : Action Interface → Prop
  | .send table destIP id =>
      id < st.pings.length ∧
        (∃ ip entry, destIP = some ip ∧ Route.Longest table ip none entry) ∧ st.OtherOpen id
  | .close id => id < st.pings.length ∧ st.OtherOpen id
  | _ => False

/-- What holds in every state. -/
structure Valid (st : Pings Interface) : Prop where
  next : st.nextPingId = st.pings.length + 1
  made : ∀ (id : Nat) (ping : Ping), st.pings[id]? = some ping →
    ping.pingId = BitVec.ofNat 16 (id + 1) ∧ ping.data = defaultPingData
  registered : ∀ pingId id, st.listeners.lookup pingId = some id →
    ∃ ping, st.pings[id]? = some ping ∧ ping.pingId = pingId ∧ ping.isOpen
  requested : ∀ id request, (id, request) ∈ st.requests → ∃ ping, st.pings[id]? = some ping ∧
    request.headerValue.extractLsb' 16 16 = ping.pingId ∧ request.u8data = ping.data
  sent : ∀ id ping, st.pings[id]? = some ping → ping.isOpen →
    ∃ request, (id, request) ∈ st.requests

/-- All open pings are registered. -/
def Registered (st : Pings Interface) : Prop :=
  ∀ id ping, st.pings[id]? = some ping → ping.isOpen → st.listeners.lookup ping.pingId = some id

/-! ## Registration and dispatch -/

/-- Two pings have one identifier exactly if a multiple of `2 ^ 16` constructions lies between
them. -/
theorem Valid.pingId_eq_iff {st : Pings Interface} (valid : st.Valid) {id other : Nat}
    {ping otherPing : Ping} (present : st.pings[id]? = some ping)
    (otherPresent : st.pings[other]? = some otherPing) :
    otherPing.pingId = ping.pingId ↔ other % 2 ^ 16 = id % 2 ^ 16 := by
  rw [(valid.made id ping present).1, (valid.made other otherPing otherPresent).1,
    ← BitVec.toNat_inj, BitVec.toNat_ofNat, BitVec.toNat_ofNat]
  constructor
  · intro same
    omega
  · intro same
    omega

theorem accepts_of_drop {ping : Ping} {u8 : Bytes} {dataOffset : Nat}
    (data : u8.drop dataOffset = ping.data) (nonempty : ping.data ≠ []) :
    ping.accepts u8 dataOffset := by
  have length : u8.length - dataOffset = ping.data.length := by rw [← data, List.length_drop]
  have positive := List.length_pos_iff.mpr nonempty
  unfold Ping.accepts
  rw [Bool.and_eq_true, decide_eq_true_iff, List.all_eq_true]
  refine ⟨by omega, fun i _ => ?_⟩
  rw [decide_eq_true_iff, ← data, List.getElem?_drop]

/-- A reply to a registered ping with its data is reported to it. -/
theorem receive_registered {view : U8View} {st : Pings Interface} {id : PingId} {ping : Ping}
    (present : st.pings[id]? = some ping) (nonempty : ping.data ≠ [])
    (registered : st.listeners.lookup ping.pingId = some id) (srcIP : IP4Address) {u8 : Bytes}
    {headerOffset : Nat} {seq : BitVec 16}
    (type : getType u8 headerOffset = some ICMP_TYPE_ECHO_REPLY)
    (identifier : getEchoRequestIdentifier view u8 headerOffset = some ping.pingId)
    (sequence : getEchoRequestSequence view u8 headerOffset = some seq)
    (data : u8.drop (headerOffset + headerLength) = ping.data) :
    (st.receive view srcIP u8 headerOffset).replies = st.replies ++ [⟨id, srcIP, seq⟩] := by
  have accepted : ping.accepts u8 (headerOffset + headerLength) := accepts_of_drop data nonempty
  unfold receive handleEchoReply
  rw [if_pos type, identifier, sequence]
  dsimp only
  rw [registered]
  dsimp only
  rw [present, Option.any_some, accepted]
  rfl

/-- **A reply that is reported goes to the ping that is registered.** -/
theorem registered_of_reply {view : U8View} {st : Pings Interface} {id : PingId}
    {pingId seq : BitVec 16} {srcIP : IP4Address} {u8 : Bytes} {headerOffset : Nat}
    (identifier : getEchoRequestIdentifier view u8 headerOffset = some pingId)
    (reported : (st.receive view srcIP u8 headerOffset).replies =
      st.replies ++ [⟨id, srcIP, seq⟩]) :
    st.listeners.lookup pingId = some id := by
  have silent : st.replies ≠ st.replies ++ [⟨id, srcIP, seq⟩] := by simp
  unfold receive at reported
  split at reported
  · unfold handleEchoReply at reported
    rw [identifier] at reported
    split at reported
    · next first second found _ =>
        cases found
        split at reported
        · exact absurd reported silent
        · next other registered =>
            split at reported
            · have same := List.append_cancel_left reported
              rw [registered]
              cases same
              rfl
            · exact absurd reported silent
    · exact absurd reported silent
  · exact absurd reported silent

theorem defaultPingData_ne_nil : defaultPingData ≠ [] := by decide

/-- **Replies reach the ping that asked exactly if all open pings are registered.** -/
theorem Valid.dispatches_iff {view : U8View} (documented : view.BigEndian) {st : Pings Interface}
    (valid : st.Valid) : st.Dispatches view ↔ st.Registered := by
  constructor
  · intro dispatches id ping present isOpen
    obtain ⟨request, sent⟩ := valid.sent id ping present isOpen
    obtain ⟨same, found, identifier, data⟩ := valid.requested id request sent
    obtain rfl := Option.some.inj (present.symm.trans found)
    -- A reply with the identifier of the ping, and its data.
    have reads := U8View.uint16BE_append ping.pingId
    generalize UInt8.ofNat (ping.pingId.toNat / 2 ^ 8) = high at reads
    generalize UInt8.ofNat ping.pingId.toNat = low at reads
    have readsId : getEchoRequestIdentifier view ([0, 0, 0, 0, high, low, 0, 0] ++ ping.data) 0 =
        some ping.pingId := by
      rw [← reads]
      exact documented.getUint16BE [0, 0, 0, 0] ([0, 0] ++ ping.data) high low
    have readsSeq : getEchoRequestSequence view ([0, 0, 0, 0, high, low, 0, 0] ++ ping.data) 0 =
        some ((0 : UInt8).toBitVec ++ (0 : UInt8).toBitVec) :=
      documented.getUint16BE [0, 0, 0, 0, high, low] ping.data 0 0
    exact registered_of_reply readsId (dispatches id ping request present isOpen sent .ANY _ 0 _ rfl
      (readsId.trans (congrArg some identifier.symm)) readsSeq data.symm)
  · intro registered id ping request present isOpen sent srcIP u8 headerOffset seq type identifier
      sequence data
    obtain ⟨same, found, sentId, sentData⟩ := valid.requested id request sent
    obtain rfl := Option.some.inj (present.symm.trans found)
    have nonempty : ping.data ≠ [] := by
      rw [(valid.made id ping present).2]
      exact defaultPingData_ne_nil
    exact receive_registered present nonempty (registered id ping present isOpen) srcIP type
      (identifier.trans (congrArg some sentId)) sequence (data.trans sentData)

/-! ## What a step does -/

/-- A ping after one of the list is replaced. -/
theorem getElem?_set_cases {pings : List Ping} {id other : Nat} {new ping : Ping}
    (found : (pings.set id new)[other]? = some ping) :
    (other = id ∧ ping = new) ∨ (other ≠ id ∧ pings[other]? = some ping) := by
  by_cases same : other = id
  · subst same
    rw [List.getElem?_set] at found
    split at found
    · split at found
      · exact .inl ⟨rfl, (Option.some.inj found).symm⟩
      · cases found
    · next different => exact absurd rfl different
  · rw [List.getElem?_set_ne (Ne.symm same)] at found
    exact .inr ⟨same, found⟩

theorem getElem?_set_other {pings : List Ping} {id other : Nat} {new ping : Ping}
    (different : other ≠ id) (found : pings[other]? = some ping) :
    (pings.set id new)[other]? = some ping := by
  rw [List.getElem?_set_ne (Ne.symm different)]
  exact found

theorem getElem?_set_present {pings : List Ping} {id : Nat} {new ping : Ping}
    (found : pings[id]? = some ping) : (pings.set id new)[id]? = some new :=
  List.getElem?_set_self (List.getElem?_eq_some_iff.mp found).1

variable {st : Pings Interface}

theorem Valid.create (valid : st.Valid) :
    st.create.Valid ∧ (st.Registered → st.create.Registered) := by
  have came {id : Nat} {ping : Ping} (found : st.create.pings[id]? = some ping) :
      st.pings[id]? = some ping ∨
        id = st.pings.length ∧ ping = { pingId := BitVec.ofNat 16 st.nextPingId } := by
    unfold Pings.create at found
    rcases Nat.lt_or_ge id st.pings.length with old | new
    · rw [List.getElem?_append_left old] at found
      exact .inl found
    · rw [List.getElem?_append_right new, List.getElem?_singleton] at found
      split at found
      · exact .inr ⟨by omega, (Option.some.inj found).symm⟩
      · cases found
  have kept {id : Nat} {ping : Ping} (found : st.pings[id]? = some ping) :
      st.create.pings[id]? = some ping := by
    unfold Pings.create
    rw [List.getElem?_append_left (List.getElem?_eq_some_iff.mp found).1]
    exact found
  refine ⟨⟨?_, ?_, ?_, ?_, ?_⟩, ?_⟩
  · unfold Pings.create
    rw [valid.next, List.length_append]
    rfl
  · intro id ping found
    rcases came found with old | ⟨rfl, rfl⟩
    · exact valid.made id ping old
    · exact ⟨by rw [valid.next], rfl⟩
  · intro pingId id found
    obtain ⟨ping, present, same, isOpen⟩ := valid.registered pingId id found
    exact ⟨ping, kept present, same, isOpen⟩
  · intro id request sent
    obtain ⟨ping, present, same⟩ := valid.requested id request sent
    exact ⟨ping, kept present, same⟩
  · intro id ping found isOpen
    rcases came found with old | ⟨rfl, rfl⟩
    · exact valid.sent id ping old isOpen
    · cases isOpen
  · intro registered id ping found isOpen
    rcases came found with old | ⟨rfl, rfl⟩
    · exact registered id ping old isOpen
    · cases isOpen

/-- A ping whose sequence number alone changes. -/
theorem Valid.advance (valid : st.Valid) {id : PingId} {ping : Ping}
    (present : st.pings[id]? = some ping) (nextSeq : Nat) :
    Valid { st with pings := st.pings.set id { ping with nextSeq } } ∧
      (st.Registered → Registered { st with pings := st.pings.set id { ping with nextSeq } }) := by
  have kept {other : Nat} {found : Ping} (present' : st.pings[other]? = some found) :
      ∃ after, (st.pings.set id { ping with nextSeq })[other]? = some after ∧
        after.pingId = found.pingId ∧ after.data = found.data ∧ after.isOpen = found.isOpen := by
    by_cases same : other = id
    · subst same
      obtain rfl := Option.some.inj (present.symm.trans present')
      exact ⟨_, getElem?_set_present present, rfl, rfl, rfl⟩
    · exact ⟨found, getElem?_set_other same present', rfl, rfl, rfl⟩
  have came {other : Nat} {after : Ping}
      (found : (st.pings.set id { ping with nextSeq })[other]? = some after) :
      ∃ before, st.pings[other]? = some before ∧ after.pingId = before.pingId ∧
        after.data = before.data ∧ after.isOpen = before.isOpen := by
    rcases getElem?_set_cases found with ⟨rfl, rfl⟩ | ⟨-, old⟩
    · exact ⟨ping, present, rfl, rfl, rfl⟩
    · exact ⟨after, old, rfl, rfl, rfl⟩
  refine ⟨⟨?_, ?_, ?_, ?_, ?_⟩, ?_⟩
  · rw [List.length_set]
    exact valid.next
  · intro other after found
    obtain ⟨before, old, pingId, data, -⟩ := came found
    rw [pingId, data]
    exact valid.made other before old
  · intro pingId other found
    obtain ⟨before, old, same, isOpen⟩ := valid.registered pingId other found
    obtain ⟨after, now, afterId, -, afterOpen⟩ := kept old
    exact ⟨after, now, afterId.trans same, afterOpen.trans isOpen⟩
  · intro other request sent
    obtain ⟨before, old, same, data⟩ := valid.requested other request sent
    obtain ⟨after, now, afterId, afterData, -⟩ := kept old
    exact ⟨after, now, same.trans afterId.symm, data.trans afterData.symm⟩
  · intro other after found isOpen
    obtain ⟨before, old, -, -, same⟩ := came found
    exact valid.sent other before old (same.symm.trans isOpen)
  · intro registered other after found isOpen
    obtain ⟨before, old, pingId, -, same⟩ := came found
    rw [pingId]
    exact registered other before old (same.symm.trans isOpen)

/-- Under the identifier of a ping only it is registered, unless another one is open. -/
theorem Valid.lookup_of_not_otherOpen (valid : st.Valid) {id : PingId} {ping : Ping}
    (present : st.pings[id]? = some ping) (alone : ¬ st.OtherOpen id) {other : PingId}
    (found : st.listeners.lookup ping.pingId = some other) : other = id := by
  by_contra different
  obtain ⟨holder, holderPresent, same, isOpen⟩ := valid.registered _ other found
  exact alone ⟨other, holder, different, (valid.pingId_eq_iff present holderPresent).mp same,
    holderPresent, isOpen⟩

/-- Another open ping is registered under the identifier, if all open pings are. -/
theorem Registered.lookup_of_otherOpen (registered : st.Registered) (valid : st.Valid)
    {id : PingId} {ping : Ping} (present : st.pings[id]? = some ping) (other : st.OtherOpen id) :
    ∃ holder, holder ≠ id ∧ st.listeners.lookup ping.pingId = some holder := by
  obtain ⟨holder, holderPing, different, same, holderPresent, isOpen⟩ := other
  refine ⟨holder, different, ?_⟩
  rw [← (valid.pingId_eq_iff present holderPresent).mpr same]
  exact registered holder holderPing holderPresent isOpen

/-- The listeners after a ping transmits. -/
def register (st : Pings Interface) (pingId : BitVec 16) (id : PingId) :
    AList fun _ : BitVec 16 => PingId :=
  if (st.listeners.lookup pingId).isSome then st.listeners else st.listeners.insert pingId id

theorem lookup_register_other {pingId other : BitVec 16} (different : other ≠ pingId)
    (id : PingId) : (st.register pingId id).lookup other = st.listeners.lookup other := by
  unfold register
  split
  · rfl
  · exact AList.lookup_insert_ne different

theorem lookup_register_self (pingId : BitVec 16) (id : PingId) :
    (st.register pingId id).lookup pingId = some ((st.listeners.lookup pingId).getD id) := by
  unfold register
  cases found : st.listeners.lookup pingId with
  | none =>
      rw [if_neg (by simp)]
      exact AList.lookup_insert _
  | some holder =>
      rw [if_pos Option.isSome_some, found]
      rfl

/-- **A ping that transmits is registered exactly if no other one with its identifier is
open**, and nothing changes for the others. -/
theorem Valid.transmit (valid : st.Valid) {id : PingId} {ping new : Ping}
    (present : st.pings[id]? = some ping) (samePingId : new.pingId = ping.pingId)
    (sameData : new.data = ping.data) (isOpen : new.isOpen) {request : Transmit Interface}
    (identifier : request.headerValue.extractLsb' 16 16 = ping.pingId)
    (data : request.u8data = ping.data) :
    Valid { st with
      pings := st.pings.set id new
      listeners := st.register ping.pingId id
      requests := st.requests ++ [(id, request)] } ∧
    (st.Registered → (Registered { st with
      pings := st.pings.set id new
      listeners := st.register ping.pingId id
      requests := st.requests ++ [(id, request)] } ↔ ¬ st.OtherOpen id)) := by
  have nowPresent : (st.pings.set id new)[id]? = some new := getElem?_set_present present
  refine ⟨⟨?_, ?_, ?_, ?_, ?_⟩, fun registered => ⟨?_, ?_⟩⟩
  · rw [List.length_set]
    exact valid.next
  · intro other after found
    rcases getElem?_set_cases found with ⟨rfl, rfl⟩ | ⟨-, old⟩
    · rw [samePingId, sameData]
      exact valid.made other ping present
    · exact valid.made other after old
  · intro pingId other found
    by_cases same : other = id
    · subst same
      refine ⟨new, nowPresent, ?_, isOpen⟩
      by_cases own : pingId = ping.pingId
      · rw [own, samePingId]
      · rw [lookup_register_other own] at found
        obtain ⟨before, old, pingIdSame, -⟩ := valid.registered pingId other found
        obtain rfl := Option.some.inj (present.symm.trans old)
        exact absurd pingIdSame.symm own
    · have before : st.listeners.lookup pingId = some other := by
        by_cases own : pingId = ping.pingId
        · rw [own, lookup_register_self] at found
          rw [own]
          cases holder : st.listeners.lookup ping.pingId with
          | none =>
              rw [holder] at found
              exact absurd (Option.some.inj found).symm same
          | some holderId =>
              rw [holder] at found
              exact found
        · rwa [lookup_register_other own] at found
      obtain ⟨other', old, rest⟩ := valid.registered pingId other before
      exact ⟨other', getElem?_set_other same old, rest⟩
  · intro other sent member
    have keeps {other : Nat} {found : Ping} (old : st.pings[other]? = some found) :
        ∃ after, (st.pings.set id new)[other]? = some after ∧ after.pingId = found.pingId ∧
          after.data = found.data := by
      by_cases same : other = id
      · subst same
        obtain rfl := Option.some.inj (present.symm.trans old)
        exact ⟨new, nowPresent, samePingId, sameData⟩
      · exact ⟨found, getElem?_set_other same old, rfl, rfl⟩
    rcases List.mem_append.mp member with earlier | last
    · obtain ⟨before, old, sentId, sentData⟩ := valid.requested other sent earlier
      obtain ⟨after, now, afterId, afterData⟩ := keeps old
      exact ⟨after, now, sentId.trans afterId.symm, sentData.trans afterData.symm⟩
    · cases List.mem_singleton.mp last
      exact ⟨new, nowPresent, identifier.trans samePingId.symm, data.trans sameData.symm⟩
  · intro other after found openAfter
    rcases getElem?_set_cases found with ⟨rfl, rfl⟩ | ⟨-, old⟩
    · exact ⟨request, List.mem_append_right _ (List.mem_singleton_self _)⟩
    · obtain ⟨sent, member⟩ := valid.sent other after old openAfter
      exact ⟨sent, List.mem_append_left _ member⟩
  · intro after others
    obtain ⟨holder, different, held⟩ := registered.lookup_of_otherOpen valid present others
    have own := after id new nowPresent isOpen
    rw [samePingId, lookup_register_self, held] at own
    exact different (Option.some.inj own)
  · intro alone other after found openAfter
    rcases getElem?_set_cases found with ⟨rfl, rfl⟩ | ⟨different, old⟩
    · rw [samePingId, lookup_register_self]
      cases held : st.listeners.lookup ping.pingId with
      | none => rfl
      | some holder => exact congrArg some (valid.lookup_of_not_otherOpen present alone held)
    · rw [lookup_register_other]
      · exact registered other after old openAfter
      · intro clash
        exact alone ⟨other, after, different, (valid.pingId_eq_iff present old).mp clash, old,
          openAfter⟩

/-- **Closing a ping leaves the others registered exactly if none with its identifier is
open.** -/
theorem Valid.close (valid : st.Valid) {id : PingId} {ping : Ping}
    (present : st.pings[id]? = some ping) :
    (st.close id ping).Valid ∧
      (st.Registered → ((st.close id ping).Registered ↔ ¬ st.OtherOpen id)) := by
  have nowPresent : (st.pings.set id { ping with isOpen := false })[id]? =
      some { ping with isOpen := false } := getElem?_set_present present
  unfold Pings.close
  refine ⟨⟨?_, ?_, ?_, ?_, ?_⟩, fun registered => ⟨?_, ?_⟩⟩
  · rw [List.length_set]
    exact valid.next
  · intro other after found
    rcases getElem?_set_cases found with ⟨rfl, rfl⟩ | ⟨-, old⟩
    · exact valid.made other ping present
    · exact valid.made other after old
  · intro pingId other found
    have different : pingId ≠ ping.pingId := by
      rintro rfl
      rw [AList.lookup_erase] at found
      cases found
    rw [AList.lookup_erase_ne different] at found
    obtain ⟨holder, old, same, isOpen⟩ := valid.registered pingId other found
    refine ⟨holder, getElem?_set_other ?_ old, same, isOpen⟩
    rintro rfl
    obtain rfl := Option.some.inj (present.symm.trans old)
    exact different same.symm
  · intro other request sent
    obtain ⟨before, old, identifier, data⟩ := valid.requested other request sent
    by_cases same : other = id
    · subst same
      obtain rfl := Option.some.inj (present.symm.trans old)
      exact ⟨_, nowPresent, identifier, data⟩
    · exact ⟨before, getElem?_set_other same old, identifier, data⟩
  · intro other after found isOpen
    rcases getElem?_set_cases found with ⟨rfl, rfl⟩ | ⟨-, old⟩
    · cases isOpen
    · exact valid.sent other after old isOpen
  · rintro after ⟨other, holder, different, same, old, isOpen⟩
    have found := after other holder (getElem?_set_other different old) isOpen
    rw [(valid.pingId_eq_iff present old).mpr same, AList.lookup_erase] at found
    cases found
  · intro alone other after found isOpen
    rcases getElem?_set_cases found with ⟨rfl, rfl⟩ | ⟨different, old⟩
    · cases isOpen
    · dsimp only
      rw [AList.lookup_erase_ne]
      · exact registered other after old isOpen
      · intro clash
        exact alone ⟨other, after, different, (valid.pingId_eq_iff present old).mp clash, old,
          isOpen⟩

/-- A packet leaves everything but the replies. -/
theorem receive_eq (st : Pings Interface) (view : U8View) (srcIP : IP4Address) (u8 : Bytes)
    (headerOffset : Nat) : ∃ replies, st.receive view srcIP u8 headerOffset = { st with replies } := by
  unfold Pings.receive handleEchoReply
  split
  · split
    · split
      · exact ⟨_, rfl⟩
      · split
        · exact ⟨_, rfl⟩
        · exact ⟨_, rfl⟩
    · exact ⟨_, rfl⟩
  · exact ⟨_, rfl⟩

/-- The identifier of a request is that of its ping. -/
theorem headerValueEcho_id (id seq : BitVec 16) :
    (headerValueEcho id seq).extractLsb' 16 16 = id := by
  unfold headerValueEcho
  exact BitVec.extractLsb'_append_eq_left

theorem valid_new : Valid ({} : Pings Interface) where
  next := rfl
  made id ping found := by cases found
  registered pingId id found := by cases found
  requested id request sent := by cases sent
  sent id ping found := by cases found

theorem registered_new : Registered ({} : Pings Interface) := by
  intro id ping found
  cases found

section Step

variable [DecidableEq Interface]

theorem Valid.send (valid : st.Valid) {id : PingId} {ping : Ping}
    (present : st.pings[id]? = some ping) (table : Route.Table Interface)
    (destIP : Option IP4Address) :
    (st.send table destIP id ping).1.Valid ∧
      (st.Registered → ((st.send table destIP id ping).1.Registered ↔
        ¬ ((∃ ip entry, destIP = some ip ∧ Route.Longest table ip none entry) ∧
          st.OtherOpen id))) := by
  unfold Pings.send
  cases destIP with
  | none =>
      refine ⟨valid, fun registered => iff_of_true registered ?_⟩
      rintro ⟨⟨ip, entry, absurd_, -⟩, -⟩
      cases absurd_
  | some ip =>
      dsimp only
      cases found : Route.lookup table ip none with
      | none =>
          obtain ⟨after, keeps⟩ := valid.advance present
            (if 0xffff < ping.nextSeq + 1 then 0 else ping.nextSeq + 1)
          refine ⟨after, fun registered => iff_of_true (keeps registered) ?_⟩
          rintro ⟨⟨ip, entry, same, longest⟩, -⟩
          cases same
          rw [(Route.lookup_eq_some_iff ..).mpr longest] at found
          cases found
      | some entry =>
          have routed : ∃ ip' entry, some ip = some ip' ∧ Route.Longest table ip' none entry :=
            ⟨ip, entry, rfl, (Route.lookup_eq_some_iff ..).mp found⟩
          have transmits := @Valid.transmit _ st valid id ping
            { ping with
              nextSeq := if 0xffff < ping.nextSeq + 1 then 0 else ping.nextSeq + 1
              isOpen := true } present rfl rfl rfl
            ⟨entry.intf, ip, entry.gateway, ICMP_TYPE_ECHO_REQUEST, 0,
              headerValueEcho ping.pingId (BitVec.ofNat 16 ping.nextSeq), ping.data⟩
            (headerValueEcho_id _ _) rfl
          refine ⟨transmits.1, fun registered => (transmits.2 registered).trans ?_⟩
          rw [and_iff_right routed]

/-- **A step keeps all open pings registered exactly if it does not collide.** -/
theorem Valid.step_iff (valid : st.Valid) (registered : st.Registered) (view : U8View)
    (action : Action Interface) :
    (st.step view action).Valid ∧
      ((st.step view action).Registered ↔ ¬ st.Collides action) := by
  cases action with
  | create => exact ⟨valid.create.1, iff_of_true (valid.create.2 registered) not_false⟩
  | send table destIP id =>
      unfold step Collides
      dsimp only
      cases present : st.pings[id]? with
      | none =>
          refine ⟨valid, iff_of_true registered fun collides => ?_⟩
          exact Nat.not_le.mpr collides.1 (List.getElem?_eq_none_iff.mp present)
      | some ping =>
          obtain ⟨after, exact_at⟩ := valid.send present table destIP
          refine ⟨after, (exact_at registered).trans (not_congr ?_)⟩
          exact (and_iff_right (List.getElem?_eq_some_iff.mp present).1).symm
  | close id =>
      unfold step Collides
      dsimp only
      cases present : st.pings[id]? with
      | none =>
          refine ⟨valid, iff_of_true registered fun collides => ?_⟩
          exact Nat.not_le.mpr collides.1 (List.getElem?_eq_none_iff.mp present)
      | some ping =>
          obtain ⟨after, exact_at⟩ := valid.close present
          refine ⟨after, (exact_at registered).trans (not_congr ?_)⟩
          exact (and_iff_right (List.getElem?_eq_some_iff.mp present).1).symm
  | receive srcIP u8 headerOffset =>
      obtain ⟨replies, same⟩ := st.receive_eq view srcIP u8 headerOffset
      unfold step
      dsimp only
      rw [same]
      exact ⟨⟨valid.next, valid.made, valid.registered, valid.requested, valid.sent⟩,
        iff_of_true registered not_false⟩

/-- **Replies reach the ping that asked exactly as long as no step collides.** In every state
of a run a reply to an open ping is reported to it and to no other, exactly if in no step of
the run a ping transmits or is closed while another ping with its identifier is open. -/
theorem dispatch_exact (view : U8View) (documented : view.BigEndian)
    (actions : List (Action Interface)) :
    (∀ past future, actions = past ++ future →
      (Transition.run (step view) {} past).Dispatches view) ↔
      Transition.Along (step view) (fun (st : Pings Interface) action => ¬ st.Collides action) {}
        actions := by
  refine Transition.forall_reached_iff_of_step (fun st : Pings Interface => st.Valid)
    (fun st action valid dispatches => ?_) valid_new
    ((valid_new.dispatches_iff documented).mpr registered_new)
  obtain ⟨after, exact_at⟩ := valid.step_iff ((valid.dispatches_iff documented).mp dispatches)
    view action
  exact ⟨after, (after.dispatches_iff documented).trans exact_at⟩

end Step

/-- A default route. -/
def defaultRoute : Route.Table Nat := [⟨.ANY, .ANY, none, 0⟩]

theorem dispatch_exact_ping :
    U8View.byteByByte.BigEndian ∧
      ((∀ past future, [Action.create, .send defaultRoute (some ⟨10, 0, 0, 2⟩) 0] = past ++ future →
        (Transition.run (step .byteByByte) ({} : Pings Nat) past).Dispatches .byteByByte) ↔
        Transition.Along (step .byteByByte) (fun (st : Pings Nat) action => ¬ st.Collides action)
          {} [.create, .send defaultRoute (some ⟨10, 0, 0, 2⟩) 0]) :=
  ⟨U8View.byteByByte_bigEndian, dispatch_exact .byteByByte U8View.byteByByte_bigEndian
    [.create, .send defaultRoute (some ⟨10, 0, 0, 2⟩) 0]⟩

/-- After constructions alone all pings are closed. -/
theorem run_create (view : U8View) (count : Nat) :
    (Transition.run (step view) ({} : Pings Nat) (List.replicate count .create)).Valid ∧
      (Transition.run (step view) ({} : Pings Nat) (List.replicate count .create)).Registered ∧
      (Transition.run (step view) ({} : Pings Nat)
        (List.replicate count .create)).pings.length = count ∧
      ∀ ping ∈ (Transition.run (step view) ({} : Pings Nat)
        (List.replicate count .create)).pings, ping.isOpen = false := by
  induction count with
  | zero =>
      exact ⟨valid_new, registered_new, rfl, fun ping member => absurd member List.not_mem_nil⟩
  | succ count ih =>
      rw [List.replicate_succ', Transition.run_append, Transition.run_cons, Transition.run_nil]
      generalize Transition.run (step view) ({} : Pings Nat) (List.replicate count .create) = st
        at ih
      obtain ⟨valid, registered, length, closed⟩ := ih
      refine ⟨valid.create.1, valid.create.2 registered, ?_, fun ping member => ?_⟩
      · unfold step Pings.create
        rw [List.length_append, length]
        rfl
      · rcases List.mem_append.mp member with old | new
        · exact closed ping old
        · rw [List.mem_singleton.mp new]

/-- The first ping sends a request, and another one with its identifier is closed. -/
theorem close_same_pingId {count other : Nat} (made : other < count) (different : 0 ≠ other)
    (same : 0 % 2 ^ 16 = other % 2 ^ 16) :
    ¬ (Transition.run (step .byteByByte) ({} : Pings Nat) (List.replicate count .create ++
      [.send defaultRoute (some ⟨10, 0, 0, 2⟩) 0, .close other])).Dispatches .byteByByte := by
  intro last
  obtain ⟨valid, registered, length, closed⟩ := run_create .byteByByte count
  rw [Transition.run_append] at last
  generalize Transition.run (step .byteByByte) ({} : Pings Nat)
    (List.replicate count .create) = st at last valid registered length closed
  have allClosed (id : Nat) : ¬ st.OtherOpen id := by
    rintro ⟨other, ping, -, -, present, isOpen⟩
    rw [closed ping (List.mem_of_getElem? present)] at isOpen
    cases isOpen
  obtain ⟨first, present⟩ : ∃ ping, st.pings[0]? = some ping :=
    ⟨_, List.getElem?_eq_getElem (by omega)⟩
  obtain ⟨second, secondPresent⟩ : ∃ ping, st.pings[other]? = some ping :=
    ⟨_, List.getElem?_eq_getElem (by omega)⟩
  have routed : Route.lookup defaultRoute ⟨10, 0, 0, 2⟩ none = some ⟨.ANY, .ANY, none, 0⟩ := by
    decide +kernel
  -- The first ping transmits.
  obtain ⟨validSent, registeredSent⟩ := valid.send present defaultRoute (some ⟨10, 0, 0, 2⟩)
  have sent := (registeredSent registered).mpr fun both => allClosed 0 both.2
  have opened : ∃ ping, (st.send defaultRoute (some ⟨10, 0, 0, 2⟩) 0 first).1.pings[0]? =
      some ping ∧ ping.isOpen := by
    unfold Pings.send
    dsimp only
    rw [routed]
    exact ⟨_, getElem?_set_present present, rfl⟩
  have secondKept : (st.send defaultRoute (some ⟨10, 0, 0, 2⟩) 0 first).1.pings[other]? =
      some second := by
    unfold Pings.send
    dsimp only
    rw [routed]
    exact getElem?_set_other different.symm secondPresent
  rw [Transition.run_cons, Transition.run_cons, Transition.run_nil] at last
  unfold step at last
  dsimp only at last
  rw [present] at last
  dsimp only at last
  generalize (st.send defaultRoute (some ⟨10, 0, 0, 2⟩) 0 first).1 = after
    at last validSent sent opened secondKept
  rw [secondKept] at last
  dsimp only at last
  -- The second one, with the same identifier, is closed.
  obtain ⟨validClosed, registeredClosed⟩ := validSent.close secondKept
  obtain ⟨ping, openPresent, isOpen⟩ := opened
  exact (registeredClosed sent).mp
    ((validClosed.dispatches_iff U8View.byteByByte_bigEndian).mp last)
    ⟨0, ping, different, same, openPresent, isOpen⟩

/-- A ping that is closed stops the open ping that was made `2 ^ 16` constructions before it
from receiving its replies. -/
theorem closing_stops_other : ∃ actions : List (Action Nat),
    ¬ ∀ past future, actions = past ++ future →
      (Transition.run (step .byteByByte) {} past).Dispatches .byteByByte :=
  ⟨_, fun dispatches => @close_same_pingId (2 ^ 16 + 1) (2 ^ 16) (by decide)
    (by decide) (by decide) (dispatches _ [] (List.append_nil _).symm)⟩

/-! ## Few pings -/

/-- The number of pings that are constructed. -/
def constructions (actions : List (Action Interface)) : Nat :=
  actions.countP fun action =>
    match action with
    | .create => true
    | _ => false

theorem length_step [DecidableEq Interface] (view : U8View) (st : Pings Interface)
    (action : Action Interface) :
    (st.step view action).pings.length = st.pings.length + constructions [action] := by
  cases action with
  | create =>
      unfold step Pings.create
      rw [List.length_append]
      rfl
  | send table destIP id =>
      unfold step
      dsimp only
      split
      · rfl
      · unfold Pings.send
        split
        · rfl
        · dsimp only
          split
          · exact List.length_set
          · exact List.length_set
  | close id =>
      unfold step
      dsimp only
      split
      · rfl
      · exact List.length_set
  | receive srcIP u8 headerOffset =>
      obtain ⟨replies, same⟩ := st.receive_eq view srcIP u8 headerOffset
      unfold step
      dsimp only
      rw [same]
      rfl

/-- A step does not collide while there are no more pings than identifiers. -/
theorem not_collides_of_few [DecidableEq Interface] {st : Pings Interface}
    (few : st.pings.length ≤ 2 ^ 16) (action : Action Interface) : ¬ st.Collides action := by
  have alone (id : Nat) (below : id < st.pings.length) : ¬ st.OtherOpen id := by
    rintro ⟨other, ping, different, same, present, -⟩
    have otherBelow := (List.getElem?_eq_some_iff.mp present).1
    rw [Nat.mod_eq_of_lt (by omega), Nat.mod_eq_of_lt (by omega)] at same
    exact different same
  cases action with
  | create => exact not_false
  | send table destIP id => exact fun collides => alone id collides.1 collides.2.2
  | close id => exact fun collides => alone id collides.1 collides.2
  | receive srcIP u8 headerOffset => exact not_false

/-- **With at most `2 ^ 16` pings replies always reach the ping that asked.** -/
theorem registered_of_few [DecidableEq Interface] (view : U8View) {st : Pings Interface}
    (valid : st.Valid) (registered : st.Registered) (actions : List (Action Interface))
    (few : st.pings.length + constructions actions ≤ 2 ^ 16) :
    (Transition.run (step view) st actions).Valid ∧
      (Transition.run (step view) st actions).Registered := by
  induction actions generalizing st with
  | nil => exact ⟨valid, registered⟩
  | cons action actions ih =>
      have counted : constructions (action :: actions) =
          constructions [action] + constructions actions := by
        unfold constructions
        rw [← List.countP_append]
        rfl
      rw [counted] at few
      obtain ⟨after, exact_at⟩ := valid.step_iff registered view action
      refine ih after (exact_at.mpr (not_collides_of_few (by omega) action)) ?_
      rw [length_step]
      omega

end Pings

end JsOS.Net.Icmp
