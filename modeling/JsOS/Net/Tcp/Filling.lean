import JsOS.Net.Tcp.Step

/-! # Filling the transmit queue

While the space left in the peer's window is not negative, `_fillTransmitQueue`
cuts the entries of `_queueTx` into items as one expects (`Filled`): whole arrays
while they fit into a segment and into the window, then at most one part of an
array. What the items have in common is proved from this relation; the negative
case takes a single part of negative length (`fillQueue_of_negative`).
-/

namespace JsOS.Net.Tcp

open TCPSocket

/-- The end of the data is at most the last entry of `_queueTx`. -/
def EndLast : List (Option Bytes) → Prop
  | [] => True
  | none :: queue => queue = []
  | some _ :: queue => EndLast queue

theorem EndLast.append {queue later : List (Option Bytes)} (writes : none ∉ queue)
    (last : EndLast later) : EndLast (queue ++ later) := by
  induction queue with
  | nil => exact last
  | cons entry queue ih =>
      cases entry with
      | none => exact absurd List.mem_cons_self writes
      | some buf => exact ih fun member => writes (List.mem_cons_of_mem _ member)

/-- What `_fillTransmitQueue` takes from `_queueTx` when `space` bytes are left in
the peer's window at `position`. -/
inductive Filled (now : Nat) : Seq → Int → List (Option Bytes) → Fill → Prop where
  | empty (position : Seq) (space : Int) : Filled now position space [] ⟨[], [], position, 0⟩
  | ended (position : Seq) (space : Int) :
      Filled now position space [none] ⟨[finItem now position], [], seqInc position 1, 0⟩
  | blocked (position : Seq) (queue : List (Option Bytes)) {space : Int} {buf : Bytes}
      (room : 0 ≤ space) (stop : space = 0 ∨ buf = []) :
      Filled now position space (some buf :: queue) ⟨[], some buf :: queue, position, 0⟩
  | whole {position : Seq} {space : Int} {buf : Bytes} {queue : List (Option Bytes)} {fill : Fill}
      (nonempty : buf ≠ []) (small : (buf.length : Int) ≤ maxSegmentSize)
      (fits : (buf.length : Int) ≤ space)
      (later : Filled now (seqInc position buf.length) (space - buf.length) queue fill) :
      Filled now position space (some buf :: queue)
        ⟨dataItem now position buf.length buf :: fill.items, fill.rest, fill.position,
          buf.length + fill.reserved⟩
  | part (position : Seq) (queue : List (Option Bytes)) {space : Int} {buf : Bytes} {count : Nat}
      (positive : 0 < count) (short : count < buf.length) (small : (count : Int) ≤ maxSegmentSize)
      (fits : (count : Int) ≤ space) (limit : (count : Int) = maxSegmentSize ∨ (count : Int) = space) :
      Filled now position space (some buf :: queue)
        ⟨[dataItem now position count (buf.take count)], some (buf.drop count) :: queue,
          seqInc position count, count⟩

/-- **Filling with space left.** -/
theorem fillQueue_filled (now : Nat) {right position : Seq} {space : Int}
    {queue : List (Option Bytes)} (reach : right = seqInc position space)
    (small : space < 2147483648) (last : EndLast queue)
    (safe : queue.head?.join.isSome → 0 ≤ space) :
    Filled now position space queue (fillQueue now right position queue) := by
  induction queue generalizing position space with
  | nil => exact .empty position space
  | cons entry queue ih =>
      cases entry with
      | none =>
          have empty : queue = [] := last
          subst empty
          exact .ended position space
      | some buf =>
          have room : 0 ≤ space := safe rfl
          have offset := seqOffset_eq reach (by omega) small
          unfold fillQueue
          rw [offset]
          dsimp only
          by_cases stop : min (min space buf.length) maxSegmentSize = 0
          · rw [if_pos stop]
            refine .blocked position queue room ?_
            have : space = 0 ∨ buf.length = 0 := by
              unfold maxSegmentSize at stop
              omega
            exact this.imp_right List.length_eq_zero_iff.mp
          · rw [if_neg stop]
            by_cases all : (buf.length : Int) = min (min space buf.length) maxSegmentSize
            · rw [if_pos all, ← all]
              have nonempty : buf ≠ [] := by
                rintro rfl
                exact stop all.symm
              refine .whole nonempty (by omega) (by omega) (ih ?_ (by omega) last fun _ => by omega)
              rw [reach, seqInc_seqInc]
              congr 1
              omega
            · rw [if_neg all]
              obtain ⟨count, equal⟩ : ∃ count : Nat,
                  min (min space buf.length) maxSegmentSize = count := by
                refine Int.eq_ofNat_of_zero_le ?_
                unfold maxSegmentSize
                omega
              rw [equal] at stop all ⊢
              rw [subarray_zero_natCast, subarrayFrom_natCast]
              exact .part position queue (by omega) (by omega) (by omega) (by omega) (by omega)

/-- With negative space, one item of that negative length is pushed. -/
theorem fillQueue_of_negative (now : Nat) {right position : Seq} {space : Int} (buf : Bytes)
    (queue : List (Option Bytes)) (offset : seqOffset right position = space)
    (negative : space < 0) :
    fillQueue now right position (some buf :: queue) =
      ⟨[dataItem now position space (subarray buf 0 space)],
        some (subarrayFrom buf space) :: queue, seqInc position space, space⟩ := by
  have equal : min (min space buf.length) maxSegmentSize = space := by
    unfold maxSegmentSize
    omega
  unfold fillQueue
  rw [offset]
  dsimp only
  rw [equal, if_neg (by omega), if_neg (by omega)]

/-! ## The items -/

/-- The items cover a range of sequence numbers, one after the other. -/
def Tiles : Seq → List TransmitItem → Seq → Prop
  | first, [], last => first = last
  | first, item :: items, last =>
      item.seq = first ∧ 0 < item.len ∧ Tiles (seqInc first item.len) items last

theorem Tiles.append {first middle last : Seq} {items later : List TransmitItem}
    (left : Tiles first items middle) (right : Tiles middle later last) :
    Tiles first (items ++ later) last := by
  induction items generalizing first with
  | nil =>
      have equal : first = middle := left
      rw [equal]
      exact right
  | cons item items ih => exact ⟨left.1, left.2.1, ih left.2.2⟩

namespace Filled

variable {now : Nat} {position : Seq} {space : Int} {queue : List (Option Bytes)} {fill : Fill}

theorem tiles (filled : Filled now position space queue fill) :
    Tiles position fill.items fill.position := by
  induction filled with
  | empty | blocked => rfl
  | ended => exact ⟨rfl, Int.one_pos, rfl⟩
  | whole nonempty _ _ _ ih =>
      have := List.length_pos_iff.mpr nonempty
      exact ⟨rfl, by simp only [dataItem]; omega, ih⟩
  | part _ _ positive => exact ⟨rfl, by simp only [dataItem]; omega, rfl⟩

/-- A data item has the length of its buffer, at least one and at most a segment. -/
theorem data (filled : Filled now position space queue fill) :
    ∀ item ∈ fill.items, ∀ u8, item.u8 = some u8 →
      0 < item.len ∧ item.len = u8.length ∧ item.len ≤ maxSegmentSize := by
  induction filled with
  | empty | blocked => simp
  | ended => simp [finItem]
  | @whole position _ buf _ _ nonempty small _ _ ih =>
      intro item member u8 data
      have := List.length_pos_iff.mpr nonempty
      rcases List.mem_cons.mp member with rfl | member
      · obtain rfl : buf = u8 := Option.some.inj data
        exact ⟨by simp only [dataItem]; omega, rfl, small⟩
      · exact ih item member u8 data
  | @part position _ _ buf count positive short small _ =>
      intro item member u8 data
      obtain rfl := List.mem_singleton.mp member
      obtain rfl : buf.take count = u8 := Option.some.inj data
      refine ⟨by simp only [dataItem]; omega, ?_, small⟩
      rw [List.length_take, Nat.min_eq_left short.le]
      rfl

/-- A data item ends within the space left. -/
theorem within (filled : Filled now position space queue fill) :
    ∀ item ∈ fill.items, item.u8.isSome →
      ∃ offset : Nat, item.seq = seqInc position offset ∧ offset + item.len ≤ space := by
  induction filled with
  | empty | blocked => simp
  | ended => simp [finItem]
  | @whole position space buf _ _ _ _ fits _ ih =>
      intro item member data
      rcases List.mem_cons.mp member with rfl | member
      · exact ⟨0, (seqInc_zero _).symm, by simpa [dataItem] using fits⟩
      · obtain ⟨offset, start, bound⟩ := ih item member data
        refine ⟨buf.length + offset, ?_, by omega⟩
        rw [start, seqInc_seqInc]
        rfl
  | part position _ _ _ _ fits =>
      intro item member _
      obtain rfl := List.mem_singleton.mp member
      exact ⟨0, (seqInc_zero _).symm, by simpa [dataItem] using fits⟩

/-- The position advances by the space taken, and by one for the end of the data; it
stands still only when nothing is pushed. -/
theorem advance (filled : Filled now position space queue fill) :
    ∃ count : Nat, fill.position = seqInc position count ∧
      (count = 0 ∨ count ≤ space ∨
        (none ∈ queue ∧ fill.rest = [] ∧ (count = 1 ∨ count ≤ space + 1))) ∧
      (fill.items = [] ∨ 0 < count) := by
  induction filled with
  | empty | blocked => exact ⟨0, (seqInc_zero _).symm, .inl rfl, .inl rfl⟩
  | ended => exact ⟨1, rfl, .inr (.inr ⟨by simp, rfl, .inl rfl⟩), .inr Nat.one_pos⟩
  | @whole position space buf _ _ nonempty _ fits _ ih =>
      obtain ⟨count, reaches, bound, -⟩ := ih
      have positive := List.length_pos_iff.mpr nonempty
      refine ⟨buf.length + count, ?_, ?_, .inr (by omega)⟩
      · rw [reaches, seqInc_seqInc]
        rfl
      · rcases bound with zero | bound | ⟨ends, consumed, bound⟩
        · exact .inr (.inl (by omega))
        · exact .inr (.inl (by omega))
        · exact .inr (.inr ⟨List.mem_cons_of_mem _ ends, consumed, .inr (by omega)⟩)
  | @part position _ _ _ count positive _ _ fits =>
      exact ⟨count, rfl, .inr (.inl fits), .inr positive⟩

/-- The items have not been sent. -/
theorem fresh (filled : Filled now position space queue fill) :
    ∀ item ∈ fill.items, item.retransmits = 0 ∧ item.timeAdded = now := by
  induction filled with
  | empty | blocked => simp
  | ended | part =>
      intro item member
      rw [List.mem_singleton.mp member]
      exact ⟨rfl, rfl⟩
  | whole _ _ _ _ ih =>
      intro item member
      rcases List.mem_cons.mp member with rfl | member
      · exact ⟨rfl, rfl⟩
      · exact ih item member

theorem endLast (filled : Filled now position space queue fill) (last : EndLast queue) :
    EndLast fill.rest := by
  induction filled with
  | empty | ended => trivial
  | blocked | part => exact last
  | whole _ _ _ _ ih => exact ih last

theorem none_notMem (filled : Filled now position space queue fill) (writes : none ∉ queue) :
    none ∉ fill.rest := by
  induction filled with
  | empty | ended => simp
  | blocked | part => simpa using writes
  | whole _ _ _ _ ih => exact ih fun member => writes (List.mem_cons_of_mem _ member)

end Filled

end JsOS.Net.Tcp
