import JsOS.Net.Ip4.Reassembly

/-! # Reassembly is exact

The fragments of a datagram are slices of its payload, the last of them without the flag
for more fragments. They may arrive in any order, overlap and be repeated. While they do
not yet cover the payload, the queue holds a part of it: it covers what arrived, and it
knows the end once the last byte arrived. The fragment that completes the cover makes the
lengths agree, and the assembled array is the payload.
-/

namespace JsOS.Net.Ip4

open Tcp (Bytes)
open Tiling

/-- The bytes a fragment carries. -/
def Arrival.payload (arrival : Arrival) : Bytes := arrival.frame.u8.drop arrival.frame.nextOffset

/-- A fragment is a slice of the payload of a datagram. -/
structure Arrival.IsSlice (arrival : Arrival) (whole : Bytes) : Prop where
  nonempty : arrival.payload ≠ []
  bytes : arrival.payload = (whole.drop arrival.fragmentOffset).take arrival.payload.length
  within : arrival.fragmentOffset + arrival.payload.length ≤ whole.length
  last : arrival.isMoreFragments = false ↔
    arrival.fragmentOffset + arrival.payload.length = whole.length

/-- The fragments carry every byte of the payload. -/
def Covers (arrivals : List Arrival) (whole : Bytes) : Prop :=
  ∀ index : Nat, index < whole.length → ∃ arrival ∈ arrivals, (index : ℤ) ∈ arrival.span

/-- A fragment carries bytes for its own places only. -/
theorem Arrival.mem_span_of_byteAt (arrival : Arrival) {place : ℤ} {byte : UInt8}
    (carried : arrival.byteAt place = some byte) : place ∈ arrival.span := by
  unfold byteAt at carried
  split at carried
  · next begins =>
      have below := (List.getElem?_eq_some_iff.mp carried).1
      rw [span, mem_interval, fragmentEnd, fragmentLength]
      omega
  · cases carried

namespace Arrival.IsSlice

variable {arrival : Arrival} {whole : Bytes}

theorem fragmentLength_eq (slice : arrival.IsSlice whole) :
    arrival.fragmentLength = arrival.payload.length := by
  have nonempty := List.length_pos_iff.mpr slice.nonempty
  rw [payload, List.length_drop] at nonempty ⊢
  unfold fragmentLength
  omega

theorem fragmentEnd_eq (slice : arrival.IsSlice whole) :
    arrival.fragmentEnd = arrival.fragmentOffset + arrival.payload.length := by
  rw [fragmentEnd, slice.fragmentLength_eq]

theorem fragmentLength_pos (slice : arrival.IsSlice whole) : 0 < arrival.fragmentLength := by
  have nonempty := List.length_pos_iff.mpr slice.nonempty
  rw [slice.fragmentLength_eq]
  omega

theorem fragmentEnd_le (slice : arrival.IsSlice whole) : arrival.fragmentEnd ≤ whole.length := by
  have within := slice.within
  rw [slice.fragmentEnd_eq]
  omega

theorem isMoreFragments_eq_false_iff (slice : arrival.IsSlice whole) :
    arrival.isMoreFragments = false ↔ arrival.fragmentEnd = whole.length := by
  rw [slice.last, slice.fragmentEnd_eq]
  omega

/-- A slice carries the bytes of the payload. -/
theorem byteAt_eq (slice : arrival.IsSlice whole) {place : ℤ} (inside : place ∈ arrival.span) :
    arrival.byteAt place = whole[place.toNat]? := by
  rw [span, mem_interval, slice.fragmentEnd_eq] at inside
  have index : (arrival.frame.nextOffset + (place - arrival.fragmentOffset)).toNat =
      arrival.frame.nextOffset + (place.toNat - arrival.fragmentOffset) := by omega
  rw [byteAt, if_pos inside.1, index, ← List.getElem?_drop]
  have carried := slice.bytes
  unfold payload at carried inside
  rw [carried, List.getElem?_take_of_lt (by omega), List.getElem?_drop]
  congr 1
  omega

theorem span_subset (slice : arrival.IsSlice whole) : arrival.span ⊆ interval 0 whole.length :=
  interval_subset (Int.natCast_nonneg _) slice.fragmentEnd_le

end Arrival.IsSlice

section Covers

variable {arrivals : List Arrival} {whole : Bytes}

theorem covered_subset (slices : ∀ arrival ∈ arrivals, arrival.IsSlice whole) :
    covered Arrival.span arrivals ⊆ interval 0 whole.length := by
  intro place member
  obtain ⟨arrival, known, inside⟩ := mem_covered.mp member
  exact (slices arrival known).span_subset inside

/-- Slices cover the payload exactly when they cover its places. -/
theorem covers_iff (slices : ∀ arrival ∈ arrivals, arrival.IsSlice whole) :
    Covers arrivals whole ↔ covered Arrival.span arrivals = interval 0 whole.length := by
  constructor
  · intro covers
    apply Finset.Subset.antisymm (covered_subset slices)
    intro place member
    rw [mem_interval] at member
    obtain ⟨arrival, known, within⟩ := covers place.toNat (by omega)
    rw [Int.toNat_of_nonneg member.1] at within
    exact mem_covered.mpr ⟨arrival, known, within⟩
  · intro all index below
    apply mem_covered.mp
    rw [all, mem_interval]
    omega

end Covers

/-- A queue holds the part of a payload that arrived. -/
structure Queue.HoldsPart (arrivals : List Arrival) (whole : Bytes) (queue : Queue) : Prop where
  valid : queue.Valid arrivals
  places : covered Fragment.span queue.items = covered Arrival.span arrivals
  total : queue.totalLength = 0 ∨ queue.totalLength = whole.length
  ended : ((whole.length : ℤ) - 1) ∈ covered Arrival.span arrivals →
    queue.totalLength = whole.length

namespace Fragments

/-- Every further fragment of the datagram finds the part of its payload that arrived. -/
def Assembling (datagram : Datagram) (arrivals : List Arrival) (whole : Bytes)
    (fragments : Fragments) : Prop :=
  ∀ now arrival, arrival.datagram = datagram →
    ∃ queue, fragments.queueOf now arrival = some queue ∧ queue.HoldsPart arrivals whole

variable {datagram : Datagram} {arrivals : List Arrival} {whole : Bytes} {fragments : Fragments}

/-- With no queue for the datagram and room for one, nothing has arrived. -/
theorem assembling_nil (fresh : fragments.lookup datagram.hash = none)
    (room : fragments.size < FRAGMENT_QUEUE_MAX_COUNT) : fragments.Assembling datagram [] whole := by
  rintro now arrival rfl
  rw [Arrival.hash_datagram] at fresh
  refine ⟨{ createdAt := now }, ?_, Queue.valid_new now, rfl, .inl rfl, ?_⟩
  · simp only [queueOf, fresh, if_neg (not_le.mpr room)]
  · rintro ⟨⟩

theorem assembling_insert {queue : Queue} (part : queue.HoldsPart arrivals whole) :
    Assembling datagram arrivals whole (fragments.insert datagram.hash queue) := by
  rintro now arrival rfl
  refine ⟨queue, ?_, part⟩
  rw [Arrival.hash_datagram, queueOf, AList.lookup_insert]

/-- The end known after a slice arrived is the end of the payload, or none. -/
theorem announcedLength_eq {queue : Queue} {arrival : Arrival}
    (part : queue.HoldsPart arrivals whole) (slice : arrival.IsSlice whole) :
    (arrival.announcedLength queue = 0 ∨ arrival.announcedLength queue = whole.length) ∧
      (((whole.length : ℤ) - 1) ∈ covered Arrival.span (arrivals ++ [arrival]) →
        arrival.announcedLength queue = whole.length) ∧
      queue.totalLength ≤ arrival.announcedLength queue := by
  unfold Arrival.announcedLength
  cases more : arrival.isMoreFragments with
  | false =>
      have ends := slice.isMoreFragments_eq_false_iff.mp more
      simp only [Bool.false_eq_true, ↓reduceIte]
      refine ⟨.inr ends, fun _ => ends, ?_⟩
      rw [ends]
      rcases part.total with zero | known
      · omega
      · exact known.le
  | true =>
      have before : arrival.fragmentEnd ≠ whole.length := by
        intro ends
        rw [slice.isMoreFragments_eq_false_iff.mpr ends] at more
        cases more
      have limit := slice.fragmentEnd_le
      simp only [↓reduceIte]
      refine ⟨part.total, ?_, le_rfl⟩
      intro member
      obtain ⟨source, known, inside⟩ := mem_covered.mp member
      rcases List.mem_append.mp known with old | new
      · exact part.ended (mem_covered.mpr ⟨source, old, inside⟩)
      · cases List.mem_singleton.mp new
        rw [Arrival.span, mem_interval] at inside
        omega

theorem receivedPlaces_eq {queue : Queue} {arrival : Arrival}
    (part : queue.HoldsPart arrivals whole) :
    arrival.receivedPlaces queue = covered Arrival.span (arrivals ++ [arrival]) := by
  rw [Arrival.receivedPlaces, part.places]
  ext place
  simp only [Finset.mem_union, mem_covered, List.mem_append, List.mem_singleton]
  grind

/-- A queue whose fragments make up the payload is assembled to it. -/
theorem assemble_eq {full : Queue} (valid : full.Valid arrivals)
    (slices : ∀ arrival ∈ arrivals, arrival.IsSlice whole)
    (total : full.totalLength = whole.length) (tiles : full.Tiles) :
    full.assemble = .ok whole := by
  have fits : ∀ fragment ∈ full.items, fragment.fragEnd ≤ full.totalLength := by
    intro fragment member
    have positive := valid.nonempty fragment member
    have last : fragment.fragEnd - 1 ∈ covered Fragment.span full.items := by
      refine mem_covered.mpr ⟨fragment, member, Fragment.mem_span.mpr ?_⟩
      unfold Fragment.fragEnd
      omega
    rw [tiles.2, mem_interval] at last
    omega
  obtain ⟨u8asm, assembled⟩ := (valid.assemble_ok_iff (by omega)).mpr fits
  obtain ⟨length, shown⟩ := valid.assembled assembled
  have same : u8asm = whole := by
    apply List.ext_getElem?
    intro index
    by_cases below : index < whole.length
    · have place : (index : ℤ) ∈ covered Fragment.span full.items := by
        rw [tiles.2, mem_interval]
        omega
      obtain ⟨fragment, member, inside⟩ := mem_covered.mp place
      obtain ⟨source, known, carries⟩ := valid.carried fragment member
      obtain ⟨byte, isByte, isCarried⟩ := carries index inside
      have original := (slices source known).byteAt_eq (source.mem_span_of_byteAt isCarried)
      rw [shown fragment member index inside, isByte, ← isCarried, original, Int.toNat_natCast]
    · rw [List.getElem?_eq_none (by omega), List.getElem?_eq_none (by omega)]
  rw [assembled, same]

/-- A slice all of whose bytes arrived before changes nothing. -/
theorem HoldsPart.repeated {queue : Queue} {arrival : Arrival}
    (part : queue.HoldsPart arrivals whole) (inside : arrival.span ⊆ covered Arrival.span arrivals) :
    queue.HoldsPart (arrivals ++ [arrival]) whole ∧
      covered Arrival.span (arrivals ++ [arrival]) = covered Arrival.span arrivals := by
  have same : covered Arrival.span (arrivals ++ [arrival]) = covered Arrival.span arrivals := by
    rw [← receivedPlaces_eq part, Arrival.receivedPlaces, part.places]
    exact Finset.union_eq_right.mpr inside
  refine ⟨⟨part.valid.mono (List.subset_append_left _ _), ?_, part.total, ?_⟩, same⟩
  · rw [same]
    exact part.places
  · rw [same]
    exact part.ended

/-- The queue at the comparison of the lengths holds what arrived. -/
theorem HoldsPart.closing {queue full : Queue} {now : Nat} {arrival : Arrival}
    (part : queue.HoldsPart arrivals whole) (slice : arrival.IsSlice whole)
    (found : fragments.queueOf now arrival = some queue)
    (isClosing : fragments.closing now arrival = some full) :
    full.HoldsPart (arrivals ++ [arrival]) whole := by
  obtain ⟨total, ended, -⟩ := announcedLength_eq part slice
  obtain ⟨validFull, totalFull, placesFull, -⟩ := closing_spec part.valid found isClosing
  rw [← totalFull] at total ended
  refine ⟨validFull, ?_, total, ended⟩
  rw [placesFull, receivedPlaces_eq part]

/-- The lengths agree exactly when the slices cover the payload. -/
theorem HoldsPart.counted_iff {queue : Queue} (part : queue.HoldsPart arrivals whole)
    (nonempty : whole ≠ []) (slices : ∀ arrival ∈ arrivals, arrival.IsSlice whole)
    (some : arrivals ≠ []) :
    queue.totalLength = queue.receivedLength ↔ Covers arrivals whole := by
  have count := part.valid.receivedLength_eq
  rw [part.places] at count
  have positive := List.length_pos_iff.mpr nonempty
  rw [covers_iff slices, count]
  constructor
  · intro counted
    apply Finset.eq_of_subset_of_card_le (covered_subset slices)
    rw [card_interval]
    rcases part.total with zero | known
    · obtain ⟨first, member⟩ := List.exists_mem_of_ne_nil arrivals some
      have place : (first.fragmentOffset : ℤ) ∈ covered Arrival.span arrivals := by
        refine mem_covered.mpr ⟨first, member, ?_⟩
        have length := (slices first member).fragmentLength_pos
        rw [Arrival.span, mem_interval, Arrival.fragmentEnd]
        omega
      have present := Finset.card_pos.mpr ⟨_, place⟩
      omega
    · omega
  · intro all
    have ended := part.ended (by
      rw [all, mem_interval]
      omega)
    rw [all, card_interval]
    omega

/-- **One fragment.** A slice that completes the cover delivers the payload and removes the
queue; any other slice delivers nothing, and the queue holds what arrived. -/
theorem Assembling.addFragment (assembling : fragments.Assembling datagram arrivals whole)
    (nonempty : whole ≠ []) (small : whole.length ≤ 0xffff)
    (known : ∀ arrival ∈ arrivals, arrival.IsSlice whole) (incomplete : ¬Covers arrivals whole)
    (now : Nat) {arrival : Arrival} (own : arrival.datagram = datagram)
    (slice : arrival.IsSlice whole) :
    (Covers (arrivals ++ [arrival]) whole →
      (fragments.addFragment now arrival).2 = .ok (some (delivery arrival whole)) ∧
        (fragments.addFragment now arrival).1.lookup datagram.hash = none) ∧
    (¬Covers (arrivals ++ [arrival]) whole →
      (fragments.addFragment now arrival).2 = .ok none ∧
        (fragments.addFragment now arrival).1.Assembling datagram (arrivals ++ [arrival]) whole) := by
  have slices : ∀ source ∈ arrivals ++ [arrival], source.IsSlice whole := by
    intro source member
    rcases List.mem_append.mp member with old | new
    · exact known source old
    · cases List.mem_singleton.mp new
      exact slice
  have hash : datagram.hash = arrival.hash := by rw [← own, Arrival.hash_datagram]
  have length := slice.fragmentLength_pos
  have fits : arrival.fragmentEnd ≤ 0xffff := by
    have := slice.fragmentEnd_le
    omega
  obtain ⟨queue, found, part⟩ := assembling now arrival own
  obtain ⟨-, -, kept⟩ := announcedLength_eq part slice
  have adds := fragments.adds_addFragment now arrival
  generalize fragments.addFragment now arrival = result at adds ⊢
  cases adds with
  | ignored notStored =>
      have trimmed : arrival.portion.trim queue.fragments = none := by
        simpa [stored, found, length, fits] using notStored
      have inside : arrival.span ⊆ covered Arrival.span arrivals := by
        rw [← part.places]
        apply Portion.trim_eq_none _ part.valid.nonempty trimmed
        simp only [Arrival.portion, Arrival.fragmentEnd]
        omega
      have same := (HoldsPart.repeated part inside).2
      constructor
      · intro covers
        rw [covers_iff slices, same, ← covers_iff known] at covers
        exact absurd covers incomplete
      · refine fun _ => ⟨rfl, fun later other ownOther => ?_⟩
        obtain ⟨queue', found', part'⟩ := assembling later other ownOther
        exact ⟨queue', found', (HoldsPart.repeated part' inside).1⟩
  | refused isStored notClosing =>
      obtain ⟨new, trimmed⟩ : ∃ new, arrival.portion.trim queue.fragments = some new := by
        apply Option.ne_none_iff_exists'.mp
        intro stopped
        have ignored : fragments.stored now arrival = none := by simp [stored, found, stopped]
        cases ignored.symm.trans isStored
      have isClosing := closing_eq_some_iff.mpr
        ⟨length, fits, queue, new, found, trimmed, kept, rfl⟩
      cases notClosing.symm.trans isClosing
  | closed isStored isClosing sameFragments sameCount closes =>
      rename_i before full
      have partFull := HoldsPart.closing part slice found isClosing
      have counted_iff := HoldsPart.counted_iff partFull nonempty slices (by simp)
      have delivers (covers : Covers (arrivals ++ [arrival]) whole) :
          full.assemble = .ok whole := by
        have all := (covers_iff slices).mp covers
        have total : full.totalLength = whole.length := by
          have positive := List.length_pos_iff.mpr nonempty
          apply partFull.ended
          rw [all, mem_interval]
          omega
        apply assemble_eq partFull.valid slices total
        refine ⟨partFull.valid.apart, ?_⟩
        rw [partFull.places, all, total]
      cases closes with
      | waits short =>
          refine ⟨fun covers => absurd (counted_iff.mpr covers) short, fun _ => ⟨rfl, ?_⟩⟩
          rw [← hash]
          exact assembling_insert partFull
      | throws counted failed =>
          cases failed.symm.trans (delivers (counted_iff.mp counted))
      | delivers counted assembled =>
          cases assembled.symm.trans (delivers (counted_iff.mp counted))
          refine ⟨fun _ => ⟨rfl, ?_⟩, fun absent => absurd (counted_iff.mp counted) absent⟩
          rw [hash]
          exact AList.lookup_erase _ _

/-- The timer takes no queues in. -/
theorem size_tick_le (fragments : Fragments) (now : Nat) : (fragments.tick now).size ≤ fragments.size := by
  unfold Fragments.tick
  generalize fragments.entries = entries
  induction entries generalizing fragments with
  | nil => exact le_rfl
  | cons pair entries ih =>
      refine (ih (dropExpired now fragments pair)).trans ?_
      unfold dropExpired
      split
      · exact size_erase_le fragments pair.1
      · exact le_rfl

/-- Events that feed a datagram: slices of its payload, and timer ticks that do not drop its
queue. -/
def Feeds (datagram : Datagram) (whole : Bytes) (fragments : Fragments) : Event → Prop
  | .arrive _ arrival => arrival.datagram = datagram ∧ arrival.IsSlice whole
  | .tick now => (fragments.tick now).lookup datagram.hash = fragments.lookup datagram.hash

theorem Assembling.tick (assembling : fragments.Assembling datagram arrivals whole) {now : Nat}
    (kept : (fragments.tick now).lookup datagram.hash = fragments.lookup datagram.hash) :
    (fragments.tick now).Assembling datagram arrivals whole := by
  rintro later arrival rfl
  obtain ⟨queue, found, part⟩ := assembling later arrival rfl
  refine ⟨queue, ?_, part⟩
  rw [Arrival.hash_datagram] at kept
  have fewer := fragments.size_tick_le now
  unfold queueOf at found ⊢
  rw [kept]
  cases known : fragments.lookup arrival.hash with
  | some other => simpa [known] using found
  | none =>
      rw [known] at found
      dsimp only at found ⊢
      split at found
      · cases found
      · rw [if_neg (by omega)]
        exact found

theorem received_feeds {event : Event} (feeds : fragments.Feeds datagram whole event) :
    received [event] datagram.hash =
      match event with
      | .arrive _ arrival => [arrival]
      | .tick _ => [] := by
  cases event with
  | arrive now arrival =>
      obtain ⟨rfl, -⟩ := feeds
      exact received_arrive now arrival
  | tick now => rfl

theorem Covers.append {more : List Arrival} (covers : Covers arrivals whole) :
    Covers (arrivals ++ more) whole := by
  intro index below
  obtain ⟨arrival, known, inside⟩ := covers index below
  exact ⟨arrival, List.mem_append_left _ known, inside⟩

/-- All fragments that feed a datagram are slices of its payload. -/
theorem isSlice_of_feeds {start : Fragments} {events : List Event}
    (feeds : Transition.Along step (Feeds datagram whole) start events) :
    ∀ arrival ∈ received events datagram.hash, arrival.IsSlice whole := by
  intro arrival member
  obtain ⟨event, known, isArrival⟩ := List.mem_filterMap.mp member
  obtain ⟨before, feedsAt⟩ := feeds.exists_of_mem known
  cases event with
  | arrive now other =>
      obtain ⟨rfl, slice⟩ := feedsAt
      rw [Arrival.hash_datagram] at isArrival
      simp only [↓reduceIte, Option.some.injEq] at isArrival
      exact isArrival ▸ slice
  | tick now => cases isArrival

/-- While the payload is not covered, the queue holds what arrived. -/
theorem assembling_run {start : Fragments} (nonempty : whole ≠ []) (small : whole.length ≤ 0xffff)
    (fresh : start.lookup datagram.hash = none) (room : start.size < FRAGMENT_QUEUE_MAX_COUNT)
    {events : List Event} (feeds : Transition.Along step (Feeds datagram whole) start events)
    (incomplete : ¬Covers (received events datagram.hash) whole) :
    (Transition.run step start events).Assembling datagram (received events datagram.hash) whole := by
  induction events using List.reverseRecOn with
  | nil => exact assembling_nil fresh room
  | append_singleton past event ih =>
      rw [Transition.along_append] at feeds
      rw [received_append, received_feeds feeds.2.1] at incomplete ⊢
      have before := ih feeds.1 fun covers => incomplete (Covers.append covers)
      rw [Transition.run_append, Transition.run_cons, Transition.run_nil]
      cases event with
      | arrive now arrival =>
          obtain ⟨own, slice⟩ := feeds.2.1
          exact ((before.addFragment nonempty small (isSlice_of_feeds feeds.1)
            (fun covers => incomplete (Covers.append covers)) now own slice).2 incomplete).2
      | tick now =>
          rw [List.append_nil]
          exact before.tick feeds.2.1

/-- **Reassembly is exact.** On an interface with no queue for a datagram and room for one,
slices of the payload of the datagram arrive in any order, with any overlap and repetition,
and no timer tick drops the queue. The fragment with which the payload is first covered
delivers exactly the payload and removes the queue; every fragment before it delivers
nothing. -/
theorem payload_reassembled {start : Fragments} (nonempty : whole ≠ [])
    (small : whole.length ≤ 0xffff) (fresh : start.lookup datagram.hash = none)
    (room : start.size < FRAGMENT_QUEUE_MAX_COUNT) {past : List Event} {now : Nat}
    {arrival : Arrival}
    (feeds : Transition.Along step (Feeds datagram whole) start (past ++ [.arrive now arrival]))
    (incomplete : ¬Covers (received past datagram.hash) whole) :
    (Covers (received (past ++ [.arrive now arrival]) datagram.hash) whole →
      ((Transition.run step start past).addFragment now arrival).2 =
          .ok (some ⟨datagram.srcIP, datagram.destIP, datagram.protocolId, whole, 0⟩) ∧
        ((Transition.run step start past).addFragment now arrival).1.lookup datagram.hash = none) ∧
    (¬Covers (received (past ++ [.arrive now arrival]) datagram.hash) whole →
      ((Transition.run step start past).addFragment now arrival).2 = .ok none) := by
  rw [Transition.along_append] at feeds
  obtain ⟨own, slice⟩ := feeds.2.1
  have assembling := assembling_run nonempty small fresh room feeds.1 incomplete
  have result := assembling.addFragment nonempty small (isSlice_of_feeds feeds.1) incomplete now
    own slice
  rw [received_append, received_feeds feeds.2.1]
  refine ⟨fun covers => ?_, fun absent => (result.2 absent).1⟩
  obtain ⟨delivered, removed⟩ := result.1 covers
  refine ⟨?_, removed⟩
  rw [delivered, ← own]
  rfl

/-- The first eight of sixteen bytes. -/
def firstHalf : Arrival := arrival (lanFrame 7 0x20 0 [1, 2, 3, 4, 5, 6, 7, 8])

/-- The last eight of sixteen bytes. -/
def secondHalf : Arrival := arrival (lanFrame 7 0 1 [9, 10, 11, 12, 13, 14, 15, 16])

/-- Two halves of a payload of sixteen bytes that arrive in the wrong order. -/
theorem payload_reassembled_halves :
    ((Transition.run step ∅ [.arrive 0 secondHalf]).addFragment 0 firstHalf).2 =
      .ok (some ⟨⟨10, 0, 0, 2⟩, ⟨10, 0, 0, 1⟩, 17,
        [1, 2, 3, 4, 5, 6, 7, 8, 9, 10, 11, 12, 13, 14, 15, 16], 0⟩) := by
  have feeds : Transition.Along step
      (Feeds ⟨⟨10, 0, 0, 2⟩, ⟨10, 0, 0, 1⟩, 17, 7⟩
        [1, 2, 3, 4, 5, 6, 7, 8, 9, 10, 11, 12, 13, 14, 15, 16])
      ∅ ([.arrive 0 secondHalf] ++ [.arrive 0 firstHalf]) := by
    refine ⟨⟨by decide, ?_⟩, ⟨by decide, ?_⟩, trivial⟩
    · exact ⟨by decide, by decide, by decide, by decide⟩
    · exact ⟨by decide, by decide, by decide, by decide⟩
  have incomplete : ¬Covers [secondHalf]
      [1, 2, 3, 4, 5, 6, 7, 8, 9, 10, 11, 12, 13, 14, 15, 16] := by
    intro covers
    obtain ⟨arrival, member, inside⟩ := covers 0 (by decide)
    cases List.mem_singleton.mp member
    exact absurd inside (by decide)
  have complete : Covers [secondHalf, firstHalf]
      [1, 2, 3, 4, 5, 6, 7, 8, 9, 10, 11, 12, 13, 14, 15, 16] := by
    intro index below
    by_cases early : index < 8
    · refine ⟨firstHalf, by simp, mem_interval.mpr ⟨Int.natCast_nonneg _, ?_⟩⟩
      show (index : ℤ) < 8
      omega
    · refine ⟨secondHalf, by simp, mem_interval.mpr ⟨?_, ?_⟩⟩
      · show (8 : ℤ) ≤ index
        omega
      · show (index : ℤ) < 16
        exact_mod_cast below
  exact ((payload_reassembled (by decide) (by decide) rfl (by decide) feeds incomplete).1 complete).1

end Fragments

end JsOS.Net.Ip4
