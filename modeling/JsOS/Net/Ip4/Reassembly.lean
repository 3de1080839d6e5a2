import JsOS.Net.Ip4.Assembly

/-! # Reassembly is safe but for bytes beyond the announced end

A datagram is taken to be complete when as many bytes are stored as a last fragment
announced. This is right as long as no stored byte lies beyond the announced end. An end
that is announced after such a byte was stored, or such a byte after the end, is not
noticed: when the count fits nevertheless, the copying reaches beyond the array and throws.
In all other cases what is delivered was received.
-/

namespace JsOS.Net.Ip4

open Tcp (Bytes)
open Tiling

/-- A received packet from one host of a network to another, with the given identification,
fragmentation field and payload. -/
def lanFrame (id high low : UInt8) (payload : Bytes) : Frame where
  u8 := List.replicate 14 0 ++
    [0x45, 0, 0, UInt8.ofNat (20 + payload.length), 0, id, high, low, 64, 17, 0, 0,
      10, 0, 0, 2, 10, 0, 0, 1] ++ payload
  headerOffset := 14
  header_le := by simp

/-- The stored fragments share no byte and make up the datagram up to the announced end. -/
def Queue.Tiles (queue : Queue) : Prop :=
  Apart Fragment.span queue.items ∧
    covered Fragment.span queue.items = interval 0 queue.totalLength

/-- The end of the datagram as known when a fragment has arrived. -/
def Arrival.announcedLength (arrival : Arrival) (queue : Queue) : Int :=
  if arrival.isMoreFragments then queue.totalLength else arrival.fragmentEnd

/-- The places received when a fragment has arrived. -/
def Arrival.receivedPlaces (arrival : Arrival) (queue : Queue) : Finset ℤ :=
  arrival.span ∪ covered Fragment.span queue.items

namespace Fragments

/-- A fragment gets to the comparison of the lengths when it is not empty, not too long, has
bytes that are left after cutting, and does not announce an end before a known one. -/
theorem closing_eq_some_iff {fragments : Fragments} {now : Nat} {arrival : Arrival} {full : Queue} :
    fragments.closing now arrival = some full ↔
      0 < arrival.fragmentLength ∧ arrival.fragmentEnd ≤ 0xffff ∧
        ∃ queue new, fragments.queueOf now arrival = some queue ∧
          arrival.portion.trim queue.fragments = some new ∧
          queue.totalLength ≤ arrival.announcedLength queue ∧
          full = { queue.store new arrival.frame.u8 with
            totalLength := arrival.announcedLength queue } := by
  have settled (queue : Queue) (new : Portion) :
      announced arrival (queue.store new arrival.frame.u8) =
        if queue.totalLength ≤ arrival.announcedLength queue then
          some { queue.store new arrival.frame.u8 with
            totalLength := arrival.announcedLength queue }
        else none := by
    unfold announced Arrival.announcedLength
    cases arrival.isMoreFragments with
    | true => simp [Queue.store]
    | false =>
        simp only [Bool.false_eq_true, ↓reduceIte]
        by_cases refused : arrival.fragmentEnd < (queue.store new arrival.frame.u8).totalLength
        · rw [if_pos refused]
          rw [totalLength_store] at refused
          rw [if_neg (not_le.mpr refused)]
        · rw [if_neg refused]
          rw [totalLength_store] at refused
          rw [if_pos (not_lt.mp refused)]
  unfold closing stored
  by_cases outside : arrival.fragmentLength ≤ 0 ∨ 0xffff < arrival.fragmentEnd
  · rw [if_pos outside]
    constructor
    · rintro ⟨⟩
    · rintro ⟨nonempty, small, -⟩
      omega
  · rw [if_neg outside]
    simp only [Option.bind_eq_some_iff, Option.map_eq_some_iff]
    constructor
    · rintro ⟨-, ⟨queue, found, new, trimmed, rfl⟩, accepted⟩
      rw [settled] at accepted
      split at accepted
      · next kept =>
          cases accepted
          exact ⟨by omega, by omega, queue, new, found, trimmed, kept, rfl⟩
      · cases accepted
    · rintro ⟨-, -, queue, new, found, trimmed, kept, rfl⟩
      exact ⟨_, ⟨queue, found, new, trimmed, rfl⟩, by rw [settled, if_pos kept]⟩

/-- A fragment **overruns** its datagram: with it as many bytes are received as are announced,
but some of them lie beyond the announced end. The fragment is one that `addFragment` takes:
it is neither empty nor too long nor contained in a stored one, and it announces no end
before a known one. -/
def Overruns (fragments : Fragments) (now : Nat) (arrival : Arrival) : Prop :=
  ∃ queue, fragments.queueOf now arrival = some queue ∧
    0 < arrival.fragmentLength ∧ arrival.fragmentEnd ≤ 0xffff ∧
    arrival.portion.trim queue.fragments ≠ none ∧
    queue.totalLength ≤ arrival.announcedLength queue ∧
    (arrival.receivedPlaces queue).card = arrival.announcedLength queue ∧
    ∃ place ∈ arrival.receivedPlaces queue, arrival.announcedLength queue ≤ place

/-- A call is safe: it does not throw, and it delivers only a datagram whose stored fragments
make it up and each of whose bytes a received fragment carried for its place. -/
def Safe (past : List Event) (now : Nat) (arrival : Arrival) : Prop :=
  match ((after past).addFragment now arrival).2 with
  | .error _ => False
  | .ok none => True
  | .ok (some delivery) =>
      (∃ queue, (after past).closing now arrival = some queue ∧ queue.Tiles ∧
        delivery.u8.length = queue.totalLength) ∧
      ∀ (index : Nat) (byte : UInt8), delivery.u8[index]? = some byte →
        ∃ source ∈ received (past ++ [.arrive now arrival]) arrival.hash,
          source.byteAt index = some byte

/-- The queue at the comparison of the lengths is valid and covers what was received. -/
theorem closing_spec {fragments : Fragments} {now : Nat} {arrival : Arrival}
    {arrivals : List Arrival} {queue full : Queue} (valid : queue.Valid arrivals)
    (found : fragments.queueOf now arrival = some queue)
    (isClosing : fragments.closing now arrival = some full) :
    full.Valid (arrivals ++ [arrival]) ∧
      full.totalLength = arrival.announcedLength queue ∧
      covered Fragment.span full.items = arrival.receivedPlaces queue ∧
      full.receivedLength = (arrival.receivedPlaces queue).card := by
  obtain ⟨nonempty, small, queue', new, found', trimmed, -, rfl⟩ :=
    closing_eq_some_iff.mp isClosing
  cases found.symm.trans found'
  have validStore := valid.store nonempty small trimmed
  have validFull : Queue.Valid (arrivals ++ [arrival])
      { queue.store new arrival.frame.u8 with totalLength := arrival.announcedLength queue } :=
    validStore.of_eq rfl rfl
  have places := valid.covered_store nonempty trimmed
  refine ⟨validFull, rfl, places, ?_⟩
  rw [validFull.receivedLength_eq]
  exact congrArg (fun set : Finset ℤ => (set.card : ℤ)) places

theorem Valid.closing {events : List Event} {fragments : Fragments} (valid : fragments.Valid events)
    {now : Nat} {arrival : Arrival} {full : Queue}
    (isClosing : fragments.closing now arrival = some full) :
    full.Valid (received (events ++ [.arrive now arrival]) arrival.hash) ∧
      ∃ queue, fragments.queueOf now arrival = some queue ∧
        full.totalLength = arrival.announcedLength queue ∧
        covered Fragment.span full.items = arrival.receivedPlaces queue ∧
        full.receivedLength = (arrival.receivedPlaces queue).card := by
  obtain ⟨-, -, queue, -, found, -⟩ := closing_eq_some_iff.mp isClosing
  obtain ⟨validFull, rest⟩ := closing_spec (valid.queueOf found) found isClosing
  rw [received_append, received_arrive]
  exact ⟨validFull, queue, found, rest⟩

/-- A fragment overruns its datagram exactly when the lengths agree while a stored fragment
reaches beyond the announced end. -/
theorem Valid.overruns_iff {events : List Event} {fragments : Fragments}
    (valid : fragments.Valid events) {now : Nat} {arrival : Arrival} :
    fragments.Overruns now arrival ↔
      ∃ full, fragments.closing now arrival = some full ∧
        full.totalLength = full.receivedLength ∧
        ∃ fragment ∈ full.items, full.totalLength < fragment.fragEnd := by
  constructor
  · rintro ⟨queue, found, nonempty, small, taken, kept, counted, place, inside, beyond⟩
    obtain ⟨new, trimmed⟩ := Option.ne_none_iff_exists'.mp taken
    have isClosing := closing_eq_some_iff.mpr
      ⟨nonempty, small, queue, new, found, trimmed, kept, rfl⟩
    obtain ⟨-, queue', found', total, places, count⟩ := valid.closing isClosing
    cases found.symm.trans found'
    refine ⟨_, isClosing, by rw [total, count, counted], ?_⟩
    rw [← places] at inside
    obtain ⟨fragment, member, within⟩ := mem_covered.mp inside
    refine ⟨fragment, member, ?_⟩
    rw [total]
    exact lt_of_le_of_lt beyond (Fragment.mem_span.mp within).2
  · rintro ⟨full, isClosing, counted, fragment, member, beyond⟩
    obtain ⟨validFull, queue, found, total, places, count⟩ := valid.closing isClosing
    obtain ⟨nonempty, small, queue', new, found', trimmed, kept, -⟩ :=
      closing_eq_some_iff.mp isClosing
    cases found.symm.trans found'
    refine ⟨queue, found, nonempty, small, by rw [trimmed]; rintro ⟨⟩, kept,
      by rw [← total, ← count, counted], fragment.fragEnd - 1, ?_, by omega⟩
    rw [← places]
    refine mem_covered.mpr ⟨fragment, member, Fragment.mem_span.mpr ?_⟩
    have positive := validFull.nonempty fragment member
    unfold Fragment.fragEnd
    omega

/-- A complete queue with no byte beyond the announced end makes up the datagram. -/
theorem tiles_of_fits {arrivals : List Arrival} {full : Queue} (valid : full.Valid arrivals)
    (counted : full.totalLength = full.receivedLength)
    (fits : ∀ fragment ∈ full.items, fragment.fragEnd ≤ full.totalLength) : full.Tiles := by
  have inside : covered Fragment.span full.items ⊆ interval 0 full.totalLength := by
    intro place member
    obtain ⟨fragment, stored, within⟩ := mem_covered.mp member
    have begins := (valid.inside fragment stored).1
    have ends := fits fragment stored
    rw [Fragment.mem_span] at within
    rw [mem_interval]
    omega
  refine ⟨valid.apart, (valid.apart.covered_eq_iff inside).mpr ?_⟩
  have count := valid.receivedLength_eq
  rw [card_interval, ← valid.apart.card_covered]
  omega

/-- **A call is safe exactly when its fragment does not overrun the datagram.** -/
theorem safe_iff_not_overruns (past : List Event) (now : Nat) (arrival : Arrival) :
    Safe past now arrival ↔ ¬(after past).Overruns now arrival := by
  have valid := valid_run past
  rw [valid.overruns_iff]
  unfold Safe
  have adds := (after past).adds_addFragment now arrival
  generalize (after past).addFragment now arrival = result at adds ⊢
  cases adds with
  | ignored notStored =>
      refine ⟨?_, fun _ => trivial⟩
      rintro - ⟨full, isClosing, -⟩
      rw [closing, notStored] at isClosing
      cases isClosing
  | refused isStored notClosing =>
      refine ⟨?_, fun _ => trivial⟩
      rintro - ⟨full, isClosing, -⟩
      cases notClosing.symm.trans isClosing
  | closed isStored isClosing sameFragments sameCount closes =>
      rename_i queue full
      have validFull := (valid.closing isClosing).1
      have count := validFull.receivedLength_eq
      cases closes with
      | waits short =>
          refine ⟨?_, fun _ => trivial⟩
          rintro - ⟨other, isClosing', counted, -⟩
          cases isClosing.symm.trans isClosing'
          exact short counted
      | throws counted failed =>
          refine ⟨False.elim, fun fits => fits ⟨full, isClosing, counted, ?_⟩⟩
          by_contra none
          push Not at none
          obtain ⟨u8asm, assembled⟩ := (validFull.assemble_ok_iff (by omega)).mpr none
          cases failed.symm.trans assembled
      | delivers counted assembled =>
          have fits := (validFull.assemble_ok_iff (by omega)).mp ⟨_, assembled⟩
          obtain ⟨length, shown⟩ := validFull.assembled assembled
          have tiles := tiles_of_fits validFull counted fits
          constructor
          · rintro - ⟨other, isClosing', -, fragment, member, beyond⟩
            cases isClosing.symm.trans isClosing'
            exact absurd (fits fragment member) (not_le.mpr beyond)
          · intro _
            refine ⟨⟨full, isClosing, tiles, ?_⟩, ?_⟩
            · rw [delivery, length]
              omega
            · intro index byte isByte
              have below : index < full.totalLength.toNat := by
                rw [← length]
                exact (List.getElem?_eq_some_iff.mp isByte).1
              have within : (index : ℤ) ∈ covered Fragment.span full.items := by
                rw [tiles.2, mem_interval]
                omega
              obtain ⟨fragment, member, inside⟩ := mem_covered.mp within
              obtain ⟨source, known, carries⟩ := validFull.carried fragment member
              obtain ⟨byte', isByte', isCarried⟩ := carries index inside
              refine ⟨source, known, ?_⟩
              rw [isCarried, ← isByte', ← shown fragment member index inside]
              exact isByte

/-- **When reassembly is safe.** In a run over any fragments and timer ticks every call is safe
exactly when no fragment overruns its datagram. -/
theorem reassembly_safe_iff (events : List Event) :
    (∀ past now arrival future, events = past ++ .arrive now arrival :: future →
        Safe past now arrival) ↔
      ∀ past now arrival future, events = past ++ .arrive now arrival :: future →
        ¬(after past).Overruns now arrival := by
  constructor
  · intro safe past now arrival future split
    exact (safe_iff_not_overruns past now arrival).mp (safe past now arrival future split)
  · intro fits past now arrival future split
    exact (safe_iff_not_overruns past now arrival).mpr (fits past now arrival future split)

/-- Eight bytes at offset 24, followed by a last fragment that puts eight bytes at offset 8 and
so announces sixteen: the count fits, and the call throws. -/
theorem reassembly_unsafe_beyond_end :
    ¬∀ past now arrival' future,
      [Event.arrive 0 (arrival (lanFrame 7 0x20 3 [1, 2, 3, 4, 5, 6, 7, 8])),
          .arrive 0 (arrival (lanFrame 7 0 1 [1, 2, 3, 4, 5, 6, 7, 8]))] =
        past ++ .arrive now arrival' :: future → Safe past now arrival' := by
  intro safe
  have throws :
      ((after [.arrive 0 (arrival (lanFrame 7 0x20 3 [1, 2, 3, 4, 5, 6, 7, 8]))]).addFragment 0
        (arrival (lanFrame 7 0 1 [1, 2, 3, 4, 5, 6, 7, 8]))).2 = .error .rangeError := by rfl
  have last := safe [_] 0 _ [] rfl
  rw [Safe, throws] at last
  exact last

end Fragments

end JsOS.Net.Ip4
