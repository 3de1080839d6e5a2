import JsOS.Net.Ip4.Datagram
import JsOS.Net.Ip4.Trimming

/-! # The fragments an interface keeps

What `addFragment` does is said once (`addFragment_cases`). From it follows what holds of
the queues of an interface after any fragments at any times: the stored fragments of a
datagram share no byte, each shows the bytes that some fragment of the datagram carried
for its places, and the count of received bytes is the sum of their lengths.
-/

namespace JsOS.Net.Ip4

open Tcp (Bytes)
open Tiling

/-- The byte a stored fragment shows for a place of the datagram. -/
def Fragment.byteAt (fragment : Fragment) (place : ℤ) : Option UInt8 :=
  fragment.u8[(fragment.nextOffset + (place - fragment.offset)).toNat]?

/-- The byte a received fragment carries for a place of its datagram. -/
def Arrival.byteAt (arrival : Arrival) (place : ℤ) : Option UInt8 :=
  if arrival.fragmentOffset ≤ place then
    arrival.frame.u8[(arrival.frame.nextOffset + (place - arrival.fragmentOffset)).toNat]?
  else none

/-- The places of the datagram a received fragment holds. -/
def Arrival.span (arrival : Arrival) : Finset ℤ :=
  interval arrival.fragmentOffset arrival.fragmentEnd

/-- For all its places a stored fragment shows the bytes of a received one. -/
def Fragment.CarriedBy (fragment : Fragment) (arrival : Arrival) : Prop :=
  ∀ place ∈ fragment.span, ∃ byte, fragment.byteAt place = some byte ∧
    arrival.byteAt place = some byte

/-- What holds of the stored fragments of a datagram when the given fragments were received. -/
structure Queue.Valid (arrivals : List Arrival) (queue : Queue) : Prop where
  nonempty : ∀ fragment ∈ queue.items, 0 < fragment.length
  apart : Apart Fragment.span queue.items
  inside : ∀ fragment ∈ queue.items, 0 ≤ fragment.offset ∧ fragment.fragEnd ≤ 0xffff
  buffered : ∀ fragment ∈ queue.items, 0 ≤ fragment.nextOffset ∧
    fragment.nextOffset + fragment.length ≤ fragment.u8.length
  carried : ∀ fragment ∈ queue.items, ∃ arrival ∈ arrivals, fragment.CarriedBy arrival
  counted : queue.receivedLength = lengths queue.items

namespace Queue

theorem Valid.mono {arrivals arrivals' : List Arrival} {queue : Queue}
    (valid : queue.Valid arrivals) (more : arrivals ⊆ arrivals') : queue.Valid arrivals' where
  nonempty := valid.nonempty
  apart := valid.apart
  inside := valid.inside
  buffered := valid.buffered
  carried := fun fragment member =>
    (valid.carried fragment member).imp fun _ known => ⟨more known.1, known.2⟩
  counted := valid.counted

/-- A new queue holds nothing. -/
theorem valid_new (now : Nat) : ({ createdAt := now } : Queue).Valid [] where
  nonempty := by rintro fragment ⟨⟩
  apart := .nil
  inside := by rintro fragment ⟨⟩
  buffered := by rintro fragment ⟨⟩
  carried := by rintro fragment ⟨⟩
  counted := rfl

/-- Only the stored fragments and the count matter. -/
theorem Valid.of_eq {arrivals : List Arrival} {queue queue' : Queue}
    (valid : queue.Valid arrivals) (sameFragments : queue'.fragments = queue.fragments)
    (sameCount : queue'.receivedLength = queue.receivedLength) : queue'.Valid arrivals := by
  have sameItems : queue'.items = queue.items := congrArg List.reduceOption sameFragments
  constructor
  · rw [sameItems]
    exact valid.nonempty
  · rw [sameItems]
    exact valid.apart
  · rw [sameItems]
    exact valid.inside
  · rw [sameItems]
    exact valid.buffered
  · rw [sameItems]
    exact valid.carried
  · rw [sameItems, sameCount]
    exact valid.counted

end Queue

/-- A portion of a received fragment shows the bytes of the fragment. -/
theorem Portion.Cut.carriedBy {arrival : Arrival} {cut : Portion} (isCut : arrival.portion.Cut cut) :
    (cut.fragment arrival.frame.u8).CarriedBy arrival := by
  obtain ⟨offset_le, nonempty, end_le, aligned⟩ := isCut
  simp only [Arrival.portion] at offset_le end_le aligned
  intro place inside
  rw [Portion.span_fragment, Portion.mem_span] at inside
  have begins : (arrival.fragmentOffset : ℤ) ≤ place := by omega
  have index : cut.newNextOffset + (place - cut.newOffset) =
      arrival.frame.nextOffset + (place - arrival.fragmentOffset) := by omega
  have bound : (arrival.frame.nextOffset + (place - arrival.fragmentOffset)).toNat <
      arrival.frame.u8.length := by
    unfold Arrival.fragmentEnd Arrival.fragmentLength at end_le
    omega
  refine ⟨arrival.frame.u8.get ⟨_, bound⟩, ?_, ?_⟩
  · rw [Fragment.byteAt, Portion.fragment, index]
    exact List.getElem?_eq_getElem bound
  · rw [Arrival.byteAt, if_pos begins]
    exact List.getElem?_eq_getElem bound

/-- The portion of a received fragment that is left when the fragments of a queue are cut off. -/
theorem Queue.Valid.trim {arrivals : List Arrival} {queue : Queue} {arrival : Arrival}
    {cut : Portion} (valid : queue.Valid arrivals) (nonempty : 0 < arrival.fragmentLength)
    (trimmed : arrival.portion.trim queue.fragments = some cut) :
    arrival.portion.Cut cut ∧ (∀ fragment ∈ queue.items, cut.Clear fragment) ∧
      arrival.span ⊆ cut.span ∪ covered Fragment.span queue.items := by
  apply Portion.trim_eq_some _ valid.nonempty valid.apart trimmed
  simp only [Arrival.portion, Arrival.fragmentEnd]
  omega

/-- **Storing keeps a queue valid.** -/
theorem Queue.Valid.store {arrivals : List Arrival} {queue : Queue} {arrival : Arrival}
    {cut : Portion} (valid : queue.Valid arrivals) (nonempty : 0 < arrival.fragmentLength)
    (small : arrival.fragmentEnd ≤ 0xffff)
    (trimmed : arrival.portion.trim queue.fragments = some cut) :
    (queue.store cut arrival.frame.u8).Valid (arrivals ++ [arrival]) := by
  obtain ⟨isCut, clear, -⟩ := valid.trim nonempty trimmed
  obtain ⟨perm, counted⟩ := queue.items_store cut arrival.frame.u8
  have old {fragment : Fragment}
      (member : fragment ∈ queue.items.filter fun fragment => !cut.contains fragment) :
      fragment ∈ queue.items := List.mem_of_mem_filter member
  have begins := isCut.offset_le
  have ends := isCut.end_le
  have positive := isCut.nonempty
  have aligned := isCut.aligned
  simp only [Arrival.portion, Arrival.fragmentEnd, Arrival.fragmentLength]
    at begins ends aligned small
  constructor
  · intro fragment member
    rcases List.mem_cons.mp (perm.mem_iff.mp member) with rfl | member
    · simp only [Portion.fragment]
      omega
    · exact valid.nonempty fragment (old member)
  · refine Apart.perm ?_ perm.symm
    apply (valid.apart.filter _).cons
    intro other member
    rw [Portion.span_fragment, ← (clear other (old member)).contains_eq_false_iff positive
      (valid.nonempty other (old member))]
    simpa using List.of_mem_filter member
  · intro fragment member
    rcases List.mem_cons.mp (perm.mem_iff.mp member) with rfl | member
    · simp only [Portion.fragment, Fragment.fragEnd]
      omega
    · exact valid.inside fragment (old member)
  · intro fragment member
    rcases List.mem_cons.mp (perm.mem_iff.mp member) with rfl | member
    · simp only [Portion.fragment]
      omega
    · exact valid.buffered fragment (old member)
  · intro fragment member
    rcases List.mem_cons.mp (perm.mem_iff.mp member) with rfl | member
    · exact ⟨arrival, by simp, isCut.carriedBy⟩
    · obtain ⟨source, known, carries⟩ := valid.carried fragment (old member)
      exact ⟨source, List.mem_append_left _ known, carries⟩
  · rw [counted, lengths_perm perm, lengths_cons, valid.counted,
      ← lengths_filter_add queue.items cut.contains]
    simp only [Portion.fragment]
    ring

/-! ## What `addFragment` does -/

namespace Fragments

/-- The queue of the datagram a fragment belongs to, a new one if there is room for it. -/
def queueOf (fragments : Fragments) (now : Nat) (arrival : Arrival) : Option Queue :=
  match fragments.lookup arrival.hash with
  | some queue => some queue
  | none => if FRAGMENT_QUEUE_MAX_COUNT ≤ fragments.size then none else some { createdAt := now }

/-- The queue with the new fragment stored in it, if the fragment is not ignored. -/
def stored (fragments : Fragments) (now : Nat) (arrival : Arrival) : Option Queue :=
  if arrival.fragmentLength ≤ 0 ∨ 0xffff < arrival.fragmentEnd then none
  else
    (fragments.queueOf now arrival).bind fun queue =>
      (arrival.portion.trim queue.fragments).map fun new => queue.store new arrival.frame.u8

/-- The queue with the end announced by a last fragment, if the end is not refused. -/
def announced (arrival : Arrival) (queue : Queue) : Option Queue :=
  if arrival.isMoreFragments then some queue
  else if arrival.fragmentEnd < queue.totalLength then none
  else some { queue with totalLength := arrival.fragmentEnd }

/-- The queue whose lengths are compared at the end of `addFragment`, if it gets there. -/
def closing (fragments : Fragments) (now : Nat) (arrival : Arrival) : Option Queue :=
  (fragments.stored now arrival).bind (announced arrival)

theorem totalLength_store (queue : Queue) (new : Portion) (u8 : Bytes) :
    (queue.store new u8).totalLength = queue.totalLength := rfl

/-- A new queue has no announced end, so that a first fragment is never refused for it. -/
theorem addToQueue_new (fragments : Fragments) (now : Nat) (piece : Piece) :
    fragments.addToQueue piece true { createdAt := now } =
      fragments.addToQueue piece false { createdAt := now } := by
  unfold addToQueue finish
  split
  · rfl
  · split
    · rfl
    · next nonempty small =>
        have accepted : ¬piece.fragmentEnd < 0 := by
          unfold Piece.fragmentEnd
          omega
        simp [totalLength_store, accepted]

theorem announced_eq_some {arrival : Arrival} {queue full : Queue}
    (accepted : announced arrival queue = some full) :
    full.fragments = queue.fragments ∧ full.receivedLength = queue.receivedLength := by
  unfold announced at accepted
  split at accepted
  · cases accepted
    exact ⟨rfl, rfl⟩
  · split at accepted
    · cases accepted
    · cases accepted
      exact ⟨rfl, rfl⟩

/-- What a call does with a queue whose end is settled. -/
inductive Closes (fragments : Fragments) (arrival : Arrival) (full : Queue) :
    Fragments × Outcome → Prop where
  | waits (short : full.totalLength ≠ full.receivedLength) :
      Closes fragments arrival full (fragments.insert arrival.hash full, .ok none)
  | throws (counted : full.totalLength = full.receivedLength) {error : RangeError}
      (failed : full.assemble = .error error) :
      Closes fragments arrival full (fragments.insert arrival.hash full, .error error)
  | delivers (counted : full.totalLength = full.receivedLength) {u8asm : Bytes}
      (assembled : full.assemble = .ok u8asm) :
      Closes fragments arrival full ((fragments.insert arrival.hash full).erase arrival.hash,
        .ok (some (delivery arrival u8asm)))

/-- **What a call does**, depending on how far it gets: the fragment is ignored, it is stored
while its announced end is refused, or it is stored and the lengths are compared. -/
inductive Adds (fragments : Fragments) (now : Nat) (arrival : Arrival) :
    Fragments × Outcome → Prop where
  | ignored (notStored : fragments.stored now arrival = none) :
      Adds fragments now arrival (fragments, .ok none)
  | refused {queue : Queue} (isStored : fragments.stored now arrival = some queue)
      (notClosing : fragments.closing now arrival = none) :
      Adds fragments now arrival (fragments.insert arrival.hash queue, .ok none)
  | closed {queue full : Queue} {result : Fragments × Outcome}
      (isStored : fragments.stored now arrival = some queue)
      (isClosing : fragments.closing now arrival = some full)
      (sameFragments : full.fragments = queue.fragments)
      (sameCount : full.receivedLength = queue.receivedLength)
      (closes : Closes fragments arrival full result) : Adds fragments now arrival result

theorem closes_finish {fragments : Fragments} {arrival : Arrival} {queue full : Queue}
    (accepted : announced arrival queue = some full) :
    Closes fragments arrival full (deliver arrival (fragments.finish arrival.piece false queue)) := by
  have taken : fragments.finish arrival.piece false queue =
      complete (fragments.insert arrival.hash full) arrival.piece full := by
    unfold announced at accepted
    unfold finish
    change (if !arrival.isMoreFragments && arrival.fragmentEnd < queue.totalLength then _ else
      complete (AList.insert arrival.hash (if arrival.isMoreFragments then queue else
        { queue with totalLength := arrival.fragmentEnd }) fragments) arrival.piece
        (if arrival.isMoreFragments then queue else
          { queue with totalLength := arrival.fragmentEnd })) = _
    cases more : arrival.isMoreFragments with
    | true =>
        simp only [more, ↓reduceIte, Option.some.injEq] at accepted
        subst accepted
        rfl
    | false =>
        simp only [more, Bool.false_eq_true, ↓reduceIte] at accepted
        split at accepted
        · cases accepted
        · next notRefused =>
            cases accepted
            rw [if_neg (by simpa using notRefused)]
            rfl
  rw [taken, complete]
  split
  · next counted =>
      cases result : full.assemble with
      | error error => exact .throws counted result
      | ok u8asm => exact .delivers counted result
  · next short => exact .waits short

theorem finish_refused {fragments : Fragments} {arrival : Arrival} {queue : Queue}
    (refused : announced arrival queue = none) :
    fragments.finish arrival.piece false queue =
      (fragments.insert arrival.hash queue, .ok none) := by
  unfold announced at refused
  split at refused
  · cases refused
  · next last =>
      split at refused
      · next below =>
          have last' : arrival.piece.isMoreFragments = false := Bool.not_eq_true _ ▸ last
          have below' : arrival.piece.fragmentEnd < queue.totalLength := below
          simp only [finish, last', below', Bool.not_false, decide_true, Bool.and_self, if_true,
            Bool.false_eq_true, if_false]
          rfl
      · cases refused

/-- A fragment of a new datagram is ignored when there is no room for its queue. -/
theorem addFragment_of_none {fragments : Fragments} {now : Nat} {arrival : Arrival}
    (full : fragments.queueOf now arrival = none) :
    fragments.addFragment now arrival = (fragments, .ok none) := by
  unfold queueOf at full
  unfold addFragment addPiece
  change deliver arrival (match fragments.lookup arrival.hash with | some queue => _ | none => _) = _
  cases known : fragments.lookup arrival.hash with
  | some queue =>
      rw [known] at full
      cases full
  | none =>
      rw [known] at full
      dsimp only at full ⊢
      split at full
      · next limit =>
          rw [if_pos limit]
          rfl
      · cases full

theorem addFragment_of_some {fragments : Fragments} {now : Nat} {arrival : Arrival} {queue : Queue}
    (found : fragments.queueOf now arrival = some queue) :
    fragments.addFragment now arrival =
      deliver arrival (fragments.addToQueue arrival.piece false queue) := by
  unfold queueOf at found
  unfold addFragment addPiece
  change deliver arrival (match fragments.lookup arrival.hash with | some queue => _ | none => _) = _
  cases known : fragments.lookup arrival.hash with
  | some other =>
      rw [known] at found
      cases found
      rfl
  | none =>
      rw [known] at found
      dsimp only at found ⊢
      split at found
      · cases found
      · next room =>
          cases found
          rw [if_neg room, addToQueue_new]

theorem adds_addFragment (fragments : Fragments) (now : Nat) (arrival : Arrival) :
    Adds fragments now arrival (fragments.addFragment now arrival) := by
  cases found : fragments.queueOf now arrival with
  | none =>
      rw [addFragment_of_none found]
      exact .ignored (by simp [stored, found])
  | some queue =>
      rw [addFragment_of_some found]
      by_cases outside : arrival.fragmentLength ≤ 0 ∨ 0xffff < arrival.fragmentEnd
      · have kept : fragments.addToQueue arrival.piece false queue = (fragments, .ok none) := by
          unfold addToQueue
          rcases outside with empty | large
          · exact if_pos empty
          · exact (ite_congr rfl (fun _ => rfl) fun _ => if_pos large).trans (ite_self _)
        rw [kept]
        exact .ignored (if_pos outside)
      · have inside := not_or.mp outside
        have nonempty : ¬arrival.piece.fragmentLength ≤ 0 := inside.1
        have small : ¬0xffff < arrival.piece.fragmentEnd := inside.2
        have uncut : arrival.piece.portion = arrival.portion := rfl
        rw [addToQueue, if_neg nonempty, if_neg small, uncut]
        cases trimmed : arrival.portion.trim queue.fragments with
        | none => exact .ignored (by simp [stored, outside, found, trimmed])
        | some new =>
            have isStored : fragments.stored now arrival =
                some (queue.store new arrival.frame.u8) := by
              simp [stored, outside, found, trimmed]
            cases accepted : announced arrival (queue.store new arrival.frame.u8) with
            | none =>
                change Adds fragments now arrival (deliver arrival
                  (fragments.finish arrival.piece false (queue.store new arrival.frame.u8)))
                rw [finish_refused accepted]
                exact .refused isStored (by rw [closing, isStored]; exact accepted)
            | some full =>
                obtain ⟨sameFragments, sameCount⟩ := announced_eq_some accepted
                exact .closed isStored (by rw [closing, isStored]; exact accepted)
                  sameFragments sameCount (closes_finish accepted)

/-! ## The map over time -/

/-- The fragments with the given key that arrived. -/
def received (events : List Event) (hash : String) : List Arrival :=
  events.filterMap fun event =>
    match event with
    | .arrive _ arrival => if arrival.hash = hash then some arrival else none
    | .tick _ => none

/-- What holds of the map of an interface after the given events. -/
structure Valid (events : List Event) (fragments : Fragments) : Prop where
  few : fragments.size ≤ FRAGMENT_QUEUE_MAX_COUNT
  queues : ∀ hash queue, fragments.lookup hash = some queue → queue.Valid (received events hash)

theorem received_append (events more : List Event) (hash : String) :
    received (events ++ more) hash = received events hash ++ received more hash :=
  List.filterMap_append

theorem received_arrive (now : Nat) (arrival : Arrival) :
    received [.arrive now arrival] arrival.hash = [arrival] := by
  simp [received]

/-- A map with some of its queues dropped. -/
theorem Valid.drop {events : List Event} {fragments fragments' : Fragments}
    (valid : fragments.Valid events) (fewer : fragments'.size ≤ fragments.size)
    (kept : ∀ hash queue, fragments'.lookup hash = some queue → fragments.lookup hash = some queue) :
    fragments'.Valid events :=
  ⟨fewer.trans valid.few, fun hash queue found => valid.queues hash queue (kept hash queue found)⟩

theorem size_erase_le (fragments : Fragments) (hash : String) :
    size (fragments.erase hash) ≤ fragments.size := by
  rw [size, AList.keys_erase]
  exact List.length_erase_le

theorem lookup_of_lookup_erase {fragments : Fragments} {hash hash' : String} {queue : Queue}
    (found : (fragments.erase hash').lookup hash = some queue) :
    fragments.lookup hash = some queue := by
  by_cases same : hash = hash'
  · subst same
    rw [AList.lookup_erase] at found
    cases found
  · rwa [AList.lookup_erase_ne same] at found

theorem Valid.erase {events : List Event} {fragments : Fragments} (valid : fragments.Valid events)
    (hash : String) : Valid events (fragments.erase hash) :=
  valid.drop (size_erase_le fragments hash) fun _ _ => lookup_of_lookup_erase

/-- The timer only drops queues. -/
theorem Valid.tick {events : List Event} {fragments : Fragments} (valid : fragments.Valid events)
    (now : Nat) : (fragments.tick now).Valid events := by
  unfold Fragments.tick
  generalize fragments.entries = entries
  induction entries generalizing fragments with
  | nil => exact valid
  | cons pair entries ih =>
      apply ih
      unfold dropExpired
      split
      · exact valid.erase pair.1
      · exact valid

theorem Valid.later {events : List Event} {fragments : Fragments} (valid : fragments.Valid events)
    (event : Event) : fragments.Valid (events ++ [event]) := by
  refine ⟨valid.few, fun hash queue found => ?_⟩
  rw [received_append]
  exact (valid.queues hash queue found).mono (List.subset_append_left _ _)

/-- The queue a fragment finds is valid. -/
theorem Valid.queueOf {events : List Event} {fragments : Fragments} (valid : fragments.Valid events)
    {now : Nat} {arrival : Arrival} {queue : Queue}
    (found : fragments.queueOf now arrival = some queue) :
    queue.Valid (received events arrival.hash) := by
  unfold Fragments.queueOf at found
  split at found
  · next queue known =>
      cases found
      exact valid.queues _ _ known
  · split at found
    · cases found
    · cases found
      exact (Queue.valid_new now).mono (List.nil_subset _)

/-- The stored fragment makes a valid queue. -/
theorem Valid.stored {events : List Event} {fragments : Fragments} (valid : fragments.Valid events)
    {now : Nat} {arrival : Arrival} {queue : Queue}
    (isStored : fragments.stored now arrival = some queue) :
    queue.Valid (received (events ++ [.arrive now arrival]) arrival.hash) := by
  unfold Fragments.stored at isStored
  split at isStored
  · cases isStored
  · next inside =>
      obtain ⟨before, found, trims⟩ := Option.bind_eq_some_iff.mp isStored
      obtain ⟨new, trimmed, rfl⟩ := Option.map_eq_some_iff.mp trims
      obtain ⟨nonempty, small⟩ := not_or.mp inside
      rw [received_append, received_arrive]
      exact (valid.queueOf found).store (not_le.mp nonempty) (not_lt.mp small) trimmed

theorem Valid.insert {events : List Event} {fragments : Fragments} (valid : fragments.Valid events)
    {now : Nat} {arrival : Arrival} {queue full : Queue}
    (isStored : fragments.stored now arrival = some queue)
    (fullValid : full.Valid (received (events ++ [.arrive now arrival]) arrival.hash)) :
    Valid (events ++ [.arrive now arrival]) (fragments.insert arrival.hash full) := by
  constructor
  · have few := valid.few
    unfold Fragments.stored Fragments.queueOf at isStored
    rw [size, AList.keys_insert, List.length_cons]
    cases known : fragments.lookup arrival.hash with
    | some before =>
        have member : arrival.hash ∈ fragments.keys := by
          rw [← AList.mem_keys, ← AList.lookup_isSome, known]
          rfl
        have shorter := List.length_erase_add_one member
        rw [shorter]
        exact few
    | none =>
        have shorter : (fragments.keys.erase arrival.hash).length ≤ fragments.size :=
          List.length_erase_le
        simp only [known] at isStored
        split at isStored
        · cases isStored
        · obtain ⟨before, found, -⟩ := Option.bind_eq_some_iff.mp isStored
          split at found
          · cases found
          · omega
  · intro hash other found
    by_cases same : hash = arrival.hash
    · subst same
      rw [AList.lookup_insert] at found
      cases found
      exact fullValid
    · rw [AList.lookup_insert_ne same] at found
      exact (valid.later _).queues hash other found

/-- One fragment keeps the map valid, also when the call throws. -/
theorem Valid.addFragment {events : List Event} {fragments : Fragments}
    (valid : fragments.Valid events) (now : Nat) (arrival : Arrival) :
    (fragments.addFragment now arrival).1.Valid (events ++ [.arrive now arrival]) := by
  have adds := fragments.adds_addFragment now arrival
  generalize fragments.addFragment now arrival = result at adds ⊢
  cases adds with
  | ignored notStored => exact valid.later _
  | refused isStored notClosing => exact valid.insert isStored (valid.stored isStored)
  | closed isStored isClosing sameFragments sameCount closes =>
      have fullValid := (valid.stored isStored).of_eq sameFragments sameCount
      have inserted := valid.insert isStored fullValid
      cases closes with
      | waits short => exact inserted
      | throws counted failed => exact inserted
      | delivers counted assembled => exact inserted.erase arrival.hash

theorem Valid.step {events : List Event} {fragments : Fragments} (valid : fragments.Valid events)
    (event : Event) : (fragments.step event).Valid (events ++ [event]) := by
  cases event with
  | arrive now arrival => exact valid.addFragment now arrival
  | tick now => exact (valid.later _).tick now

theorem valid_empty : Valid [] ∅ := by
  refine ⟨Nat.zero_le _, fun hash queue found => ?_⟩
  rw [AList.lookup_empty] at found
  cases found

theorem valid_run (events : List Event) : Valid events (after events) :=
  Transition.run_invariant_of_past Valid (fun _ _ input valid => valid.step input) valid_empty
    events

/-- **The representation invariant.** After any fragments and timer ticks at any times an
interface keeps at most a hundred queues, and each of them is valid: its fragments are not
empty, share no byte, lie within the largest datagram, show bytes that were received for
their places from within their buffers, and their lengths add up to the count. -/
theorem queues_represented (events : List Event) :
    (after events).size ≤ FRAGMENT_QUEUE_MAX_COUNT ∧
      ∀ hash queue, (after events).lookup hash = some queue →
        queue.Valid (received events hash) :=
  ⟨(valid_run events).few, (valid_run events).queues⟩

end Fragments

end JsOS.Net.Ip4
