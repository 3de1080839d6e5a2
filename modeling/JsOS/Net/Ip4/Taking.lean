import JsOS.Net.Ip4.Assembly

/-! # What becomes of a piece

`addFragment` for anything that is read from a buffer, whether or not there is a complete header in
front of it. A piece is taken if there is a queue for it, it is not empty, its end is a possible one
and the stored fragments leave a portion of it (`Takes`). Then the queue with the portion is entered
in the map, or the datagram is assembled and the queue is gone.
-/

namespace JsOS.Net.Ip4

open Tcp (Bytes)

namespace Piece

/-- The piece is not a whole datagram. -/
def IsPart (piece : Piece) : Prop := piece.isMoreFragments = true ∨ piece.fragmentOffset ≠ 0

/-- The end that the piece announces is before the end known. -/
def endsEarly (piece : Piece) (queue : Queue) : Bool :=
  !piece.isMoreFragments && piece.fragmentEnd < queue.totalLength

/-- The queue with a portion of the piece, and the end that is known then. -/
def kept (piece : Piece) (queue : Queue) (new : Portion) : Queue :=
  { queue.store new piece.u8 with
    totalLength :=
      if piece.isMoreFragments || piece.endsEarly queue then queue.totalLength
      else piece.fragmentEnd }

end Piece

namespace Queue

/-- As many bytes are stored as the datagram has. -/
def IsFull (queue : Queue) : Prop := queue.totalLength = queue.receivedLength

/-- Every fragment ends within the datagram. -/
def Fits (queue : Queue) : Prop :=
  ∀ fragment ∈ queue.items, 0 ≤ fragment.offset ∧
    fragment.offset + fragment.data.length ≤ queue.totalLength.toNat

/-- The loop that assembles throws exactly if a fragment is not within the array. -/
theorem foldlM_assembleStep_ok_iff_within {u8asm : Bytes} {fragments : List (Option Fragment)} :
    (∃ result, fragments.foldlM assembleStep u8asm = .ok result) ↔
      ∀ fragment ∈ fragments.reduceOption, 0 ≤ fragment.offset ∧
        fragment.offset + fragment.data.length ≤ u8asm.length := by
  induction fragments generalizing u8asm with
  | nil =>
      refine iff_of_true ⟨u8asm, rfl⟩ ?_
      rintro fragment ⟨⟩
  | cons slot fragments ih =>
      cases slot with
      | none => exact ih
      | some fragment =>
          rw [List.reduceOption_cons_of_some, List.forall_mem_cons]
          constructor
          · rintro ⟨result, runs⟩
            obtain ⟨next, copied, later⟩ := foldlM_assembleStep_cons_ok_iff.mp runs
            obtain ⟨begins, ends, -⟩ := setBytes_eq_ok_iff.mp copied
            rw [← setBytes_length copied]
            refine ⟨⟨begins, ?_⟩, ih.mp ⟨result, later⟩⟩
            rw [setBytes_length copied]
            exact ends
          · rintro ⟨⟨begins, ends⟩, rest⟩
            have copied := setBytes_eq_ok_iff.mpr ⟨begins, ends, rfl⟩
            rw [← setBytes_length copied] at rest
            obtain ⟨result, later⟩ := ih.mpr rest
            exact ⟨result, foldlM_assembleStep_cons_ok_iff.mpr ⟨_, copied, later⟩⟩

/-- **A datagram is assembled** exactly if its fragments end within it. -/
theorem assemble_ok_iff (queue : Queue) :
    (∃ u8asm, queue.assemble = .ok u8asm) ↔ queue.Fits := by
  unfold assemble Fits
  rw [foldlM_assembleStep_ok_iff_within, List.length_replicate]
  rfl

end Queue

namespace Fragments

variable (fragments : Fragments) (now : Nat) (piece : Piece)

/-- The queue of the datagram that the piece belongs to, a new one if there is room for it. -/
def queueFor : Option Queue :=
  match fragments.lookup piece.hash with
  | some queue => some queue
  | none => if FRAGMENT_QUEUE_MAX_COUNT ≤ fragments.size then none else some { createdAt := now }

/-- **A portion of the piece is stored** in the queue. -/
structure Takes (queue : Queue) (new : Portion) : Prop where
  room : fragments.queueFor now piece = some queue
  nonempty : 0 < piece.fragmentLength
  small : piece.fragmentEnd ≤ 0xffff
  left : piece.portion.trim queue.fragments = some new

/-- With the piece the queue holds as many bytes as the datagram has. -/
def Completes (full : Queue) : Prop :=
  ∃ queue new, fragments.Takes now piece queue new ∧ piece.endsEarly queue = false ∧
    full = piece.kept queue new ∧ full.IsFull

/-- The piece is not taken, or its queue is the same with it and stays. -/
def Repeats : Prop :=
  ∀ queue new, fragments.Takes now piece queue new →
    fragments.lookup piece.hash = some (piece.kept queue new) ∧
      (piece.endsEarly queue = true ∨ ¬(piece.kept queue new).IsFull)

variable {fragments now piece}

theorem complete_of_short (fragments : Fragments) (piece : Piece) {queue : Queue}
    (short : ¬queue.IsFull) : complete fragments piece queue = (fragments, .ok none) := if_neg short

theorem complete_of_full (fragments : Fragments) (piece : Piece) {full : Queue}
    (counted : full.IsFull) : complete fragments piece full =
      match full.assemble with
      | .error error => (fragments, .error error)
      | .ok u8asm => (fragments.erase piece.hash, .ok (some u8asm)) := if_pos counted

/-- A piece of which nothing is stored changes nothing. -/
theorem addPiece_of_not_takes (refused : ∀ queue new, ¬fragments.Takes now piece queue new) :
    fragments.addPiece now piece = (fragments, .ok none) := by
  have added (firstFragment : Bool) (queue : Queue)
      (room : fragments.queueFor now piece = some queue) :
      fragments.addToQueue piece firstFragment queue = (fragments, .ok none) := by
    unfold addToQueue
    split
    · rfl
    · split
      · rfl
      · next nonempty small =>
          cases left : piece.portion.trim queue.fragments with
          | none => rfl
          | some new =>
              exact absurd ⟨room, not_le.mp nonempty, not_lt.mp small, left⟩ (refused queue new)
  unfold addPiece
  unfold queueFor at added
  cases known : fragments.lookup piece.hash with
  | some queue =>
      rw [known] at added
      exact added false queue rfl
  | none =>
      rw [known] at added
      dsimp only at added ⊢
      split
      · rfl
      · next room =>
          rw [if_neg room] at added
          exact added true _ rfl

/-- **What becomes of a piece that is taken.** -/
theorem addPiece_of_takes {queue : Queue} {new : Portion}
    (takes : fragments.Takes now piece queue new) :
    fragments.addPiece now piece =
      if piece.endsEarly queue then
        (fragments.insert piece.hash (piece.kept queue new), .ok none)
      else
        complete (fragments.insert piece.hash (piece.kept queue new)) piece
          (piece.kept queue new) := by
  have added : fragments.addPiece now piece = fragments.addToQueue piece false queue := by
    have room := takes.room
    unfold queueFor at room
    unfold addPiece
    cases known : fragments.lookup piece.hash with
    | some other =>
        rw [known] at room
        cases room
        rfl
    | none =>
        rw [known] at room
        dsimp only at room ⊢
        split at room
        · cases room
        · next free =>
            cases room
            rw [if_neg free, addToQueue_new]
  rw [added, addToQueue, if_neg (not_le.mpr takes.nonempty), if_neg (not_lt.mpr takes.small),
    takes.left]
  dsimp only
  unfold finish Piece.kept
  rw [totalLength_store]
  change (if piece.endsEarly queue then _ else _) = _
  cases early : piece.endsEarly queue with
  | true =>
      rw [if_pos rfl, if_pos rfl, if_neg Bool.false_ne_true, Bool.or_true, if_pos rfl]
      rfl
  | false =>
      rw [if_neg Bool.false_ne_true, if_neg Bool.false_ne_true, Bool.or_false]
      cases more : piece.isMoreFragments with
      | true => rfl
      | false => rfl

theorem Takes.unique {queue queue' : Queue} {new new' : Portion}
    (takes : fragments.Takes now piece queue new) (takes' : fragments.Takes now piece queue' new') :
    queue' = queue ∧ new' = new := by
  obtain rfl : queue' = queue := Option.some.inj (takes'.room.symm.trans takes.room)
  exact ⟨rfl, Option.some.inj (takes'.left.symm.trans takes.left)⟩

/-- A piece that completes a datagram is handed on, or the copying throws. -/
theorem addPiece_of_completes {full : Queue} (completes : fragments.Completes now piece full) :
    fragments.addPiece now piece =
      match full.assemble with
      | .error error => (fragments.insert piece.hash full, .error error)
      | .ok u8asm => ((fragments.insert piece.hash full).erase piece.hash, .ok (some u8asm)) := by
  obtain ⟨queue, new, takes, ends, rfl, counted⟩ := completes
  rw [addPiece_of_takes takes, ends, if_neg Bool.false_ne_true, complete_of_full _ _ counted]

/-- A piece that completes no datagram is stored at most. -/
theorem addPiece_of_not_completes (waits : ∀ full, ¬fragments.Completes now piece full) :
    (fragments.addPiece now piece).2 = .ok none := by
  by_cases taken : ∃ queue new, fragments.Takes now piece queue new
  · obtain ⟨queue, new, takes⟩ := taken
    rw [addPiece_of_takes takes]
    split
    · rfl
    · next ends =>
        have short : ¬(piece.kept queue new).IsFull := fun full =>
          waits _ ⟨queue, new, takes, Bool.not_eq_true _ ▸ ends, rfl, full⟩
        rw [complete_of_short _ _ short]
  · rw [addPiece_of_not_takes fun queue new takes => taken ⟨queue, new, takes⟩]

/-- What a piece completes is one queue. -/
theorem Completes.unique {full full' : Queue} (completes : fragments.Completes now piece full)
    (completes' : fragments.Completes now piece full') : full' = full := by
  obtain ⟨queue, new, takes, -, rfl, -⟩ := completes
  obtain ⟨queue', new', takes', -, rfl, -⟩ := completes'
  obtain ⟨rfl, rfl⟩ := takes.unique takes'
  rfl

/-- **A piece is taken without an exception** exactly if the datagram that it completes has no
fragment beyond its end. -/
theorem addPiece_ok_iff : (∃ result, (fragments.addPiece now piece).2 = .ok result) ↔
    ∀ full, fragments.Completes now piece full → full.Fits := by
  by_cases completed : ∃ full, fragments.Completes now piece full
  · obtain ⟨full, completes⟩ := completed
    rw [addPiece_of_completes completes]
    constructor
    · rintro ⟨result, returns⟩ full' completes'
      rw [completes.unique completes', ← Queue.assemble_ok_iff]
      cases assembled : full.assemble with
      | ok u8asm => exact ⟨u8asm, rfl⟩
      | error error =>
          rw [assembled] at returns
          cases returns
    · intro fits
      obtain ⟨u8asm, assembled⟩ := full.assemble_ok_iff.mpr (fits full completes)
      rw [assembled]
      exact ⟨some u8asm, rfl⟩
  · have waits : ∀ full, ¬fragments.Completes now piece full :=
      fun full completes => completed ⟨full, completes⟩
    exact iff_of_true ⟨none, addPiece_of_not_completes waits⟩
      fun full completes => absurd completes (waits full)

/-- What is handed on is the datagram that the piece completes. -/
theorem addPiece_eq_some_iff {u8asm : Bytes} :
    (fragments.addPiece now piece).2 = .ok (some u8asm) ↔
      ∃ full, fragments.Completes now piece full ∧ full.assemble = .ok u8asm := by
  by_cases completed : ∃ full, fragments.Completes now piece full
  · obtain ⟨full, completes⟩ := completed
    rw [addPiece_of_completes completes]
    constructor
    · intro returns
      refine ⟨full, completes, ?_⟩
      cases assembled : full.assemble with
      | ok other =>
          rw [assembled] at returns
          cases returns
          rfl
      | error error =>
          rw [assembled] at returns
          cases returns
    · rintro ⟨full', completes', assembled⟩
      rw [completes.unique completes'] at assembled
      rw [assembled]
  · have waits : ∀ full, ¬fragments.Completes now piece full :=
      fun full completes => completed ⟨full, completes⟩
    refine iff_of_false ?_ ?_
    · rw [addPiece_of_not_completes waits]
      nofun
    · rintro ⟨full, completes, -⟩
      exact waits full completes

/-! ## Pieces that change nothing -/

/-- A part of a datagram is not all of it. -/
theorem not_isFull_of_fresh (part : piece.IsPart) {queue : Queue} {new : Portion}
    (takes : fragments.Takes now piece queue new)
    (fresh : fragments.lookup piece.hash = none) : ¬(piece.kept queue new).IsFull := by
  have room := takes.room
  unfold queueFor at room
  rw [fresh] at room
  dsimp only at room
  split at room
  · cases room
  cases room
  obtain rfl : piece.portion = new := Option.some.inj takes.left
  have nonempty := takes.nonempty
  have stored : (piece.kept { createdAt := now } piece.portion).receivedLength =
      0 + (piece.fragmentEnd - piece.fragmentOffset) := rfl
  unfold Queue.IsFull
  rw [stored]
  unfold Piece.kept Piece.endsEarly
  unfold Piece.IsPart at part
  unfold Piece.fragmentEnd
  dsimp only
  split
  · omega
  · next last =>
      rw [Bool.or_eq_true, not_or] at last
      rcases part with more | later
      · exact absurd more last.1
      · omega

/-- **A piece that repeats what is stored** changes nothing. -/
theorem Repeats.addPiece (repeats : fragments.Repeats now piece) :
    (fragments.addPiece now piece).2 = .ok none ∧
      ∀ hash, (fragments.addPiece now piece).1.lookup hash = fragments.lookup hash := by
  by_cases taken : ∃ queue new, fragments.Takes now piece queue new
  · obtain ⟨queue, new, takes⟩ := taken
    obtain ⟨known, stays⟩ := repeats queue new takes
    have same (hash : String) :
        (fragments.insert piece.hash (piece.kept queue new)).lookup hash =
          fragments.lookup hash := by
      by_cases own : hash = piece.hash
      · rw [own, AList.lookup_insert, known]
      · rw [AList.lookup_insert_ne own]
    rw [addPiece_of_takes takes]
    split
    · exact ⟨rfl, same⟩
    · next ends =>
        have short : ¬(piece.kept queue new).IsFull :=
          stays.resolve_left ends
        rw [complete_of_short _ _ short]
        exact ⟨rfl, same⟩
  · rw [addPiece_of_not_takes fun queue new takes => taken ⟨queue, new, takes⟩]
    exact ⟨rfl, fun hash => rfl⟩

/-- A part of a datagram that changes nothing repeats what is stored. -/
theorem repeats_of_same (part : piece.IsPart) {result : Option Bytes}
    (returns : (fragments.addPiece now piece).2 = .ok result)
    (same : (fragments.addPiece now piece).1.lookup piece.hash = fragments.lookup piece.hash) :
    fragments.Repeats now piece := by
  intro queue new takes
  rw [addPiece_of_takes takes] at returns same
  cases ends : piece.endsEarly queue with
  | true =>
      rw [ends, if_pos rfl, AList.lookup_insert] at same
      exact ⟨same.symm, .inl rfl⟩
  | false =>
      rw [ends, if_neg Bool.false_ne_true] at returns same
      by_cases full : (piece.kept queue new).IsFull
      · -- the datagram is complete, so that its queue is gone
        rw [complete_of_full _ _ full] at returns same
        cases assembled : (piece.kept queue new).assemble with
        | error error =>
            rw [assembled] at returns
            cases returns
        | ok u8asm =>
            rw [assembled] at same
            dsimp only at same
            rw [AList.lookup_erase] at same
            exact absurd full (not_isFull_of_fresh part takes same.symm)
      · rw [complete_of_short _ _ full, AList.lookup_insert] at same
        exact ⟨same.symm, .inr full⟩

end Fragments

end JsOS.Net.Ip4
