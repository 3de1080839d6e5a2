import JsOS.Core.Fs.Fat.LinkedClusters

/-! # Chains that are cut off

A chain that gets shorter forgets its last clusters and stores another status for each of them. Its
own memory then ends where it should. In the table it does not: the last cluster that is kept still
names the first one that is removed, and those are not free (`shrinkChainToLength_ensures`).
-/

namespace JsOS.Core.Fs.Fat

open Procedure (fail look)

/-! ## Shorter chains -/

/-- `cache.pop` of a cluster. -/
def Memory.pop (memory : Memory) : Memory := { memory with cache := memory.cache.dropLast }

namespace Vol

variable (vol : Vol)

/-- `removeClusters`. -/
def removeClusters : ℕ → ChainIo Unit
  | 0 => remember Memory.pushEof
  | count + 1 => do
      let memory ← look Prod.snd
      remember Memory.pop
      onDisk (vol.storeToFAT (memory.cache.getLastD 0) vol.fatType.free)
      removeClusters count

/-- `shrinkChainToLength`, of a chain that is not shorter. The first cluster is not removed. -/
def shrinkChainToLength (clusterCount : ℕ) : ChainIo Unit := do
  let memory ← look Prod.snd
  if memory.complete then do
    remember Memory.popEof
    if clusterCount ≠ 0 then vol.removeClusters (memory.cache.length - clusterCount)
    else vol.removeClusters (memory.cache.length - 1)
  else fail .cacheIncomplete

/-- `clustersNeeded`. -/
def clustersNeeded (numSectors : ℕ) : ℕ :=
  (numSectors + vol.sectorsPerCluster - 1) / vol.sectorsPerCluster

/-- `truncate`, of a chain with at most as many clusters more as are given: `Infinity` looks for the
end of the chain. -/
def truncate (more numSectors : ℕ) : ChainIo Unit := do
  vol.extendCache more
  let memory ← look Prod.snd
  if vol.clustersNeeded numSectors < memory.cache.length then
    vol.shrinkChainToLength (vol.clustersNeeded numSectors)
  else if memory.cache.length < vol.clustersNeeded numSectors then
    vol.expandChainToLength (vol.clustersNeeded numSectors)
  else pure ()

variable {vol} {disk : Disk} {clusters : List ℕ}

/-- What is stored for a cluster that is removed is read back as the number of a cluster. -/
theorem statusOf_free (fatType : FatType) :
    fatType.statusOf fatType.free = .next fatType.fatPrefix := by
  cases fatType <;> rfl

theorem free_lt (fatType : FatType) : fatType.free < fatType.fatPrefix + 0x100 := by
  unfold FatType.free
  omega

/-- **Clusters are removed** from the memory; the numbers of their entries change, and no others. -/
theorem removeClusters_ensures (sound : vol.Sound) {count : ℕ} (steady : vol.Steady disk)
    (usable : ∀ c ∈ clusters, vol.Usable c) (apart : clusters.Nodup)
    (some : count < clusters.length) :
    (vol.removeClusters count).Ensures (disk, ⟨clusters, false⟩)
      (fun _ after => after.2 = ⟨clusters.take (clusters.length - count), true⟩ ∧
        (∀ c ∈ clusters.drop (clusters.length - count),
          vol.entry after.1.bytes c = vol.fatType.free) ∧
        ∀ c ∉ clusters.drop (clusters.length - count),
          vol.entry after.1.bytes c = vol.entry disk.bytes c)
      fun _ _ => disk.faults ≠ [] := by
  induction count generalizing disk clusters with
  | zero =>
      refine ⟨?_, fun c member => ?_, fun c _ => rfl⟩
      · rw [Nat.sub_zero, List.take_length]
        rfl
      · rw [Nat.sub_zero, List.drop_length] at member
        cases member
  | succ count ih =>
      obtain ⟨rest, last, rfl⟩ := (List.eq_nil_or_concat' clusters).resolve_left
        (List.ne_nil_of_length_pos (Nat.zero_lt_of_lt some))
      have own := usable last (List.mem_append_right rest (List.mem_singleton_self last))
      have more : count < rest.length := by
        rw [List.length_append, List.length_singleton] at some
        omega
      have kept : (rest ++ [last]).length - (count + 1) = rest.length - count := by
        rw [List.length_append, List.length_singleton]
        omega
      obtain ⟨apartRest, -, foreign⟩ := List.nodup_append.mp apart
      have lastForeign : last ∉ rest := fun member =>
        foreign last member last (List.mem_singleton_self last) rfl
      have removed : (rest ++ [last]).drop (rest.length - count) =
          rest.drop (rest.length - count) ++ [last] :=
        List.drop_append_of_le_length (Nat.sub_le _ _)
      have remains : (rest ++ [last]).take (rest.length - count) =
          rest.take (rest.length - count) :=
        List.take_append_of_le_length (Nat.sub_le _ _)
      have popped : (⟨rest ++ [last], false⟩ : Memory).pop = ⟨rest, false⟩ := by
        unfold Memory.pop
        rw [List.dropLast_concat]
      have stores := storeToFAT_ensures sound steady own.below (free_lt vol.fatType)
        fun _ => own.whole
      rw [kept, removed, remains]
      unfold removeClusters remember
      refine Procedure.ensures_bind.mpr (Procedure.ensures_look.mpr ?_)
      refine Procedure.ensures_bind.mpr (Procedure.ensures_change.mpr ?_)
      dsimp only
      rw [popped, List.getLastD_concat]
      refine Procedure.ensures_bind.mpr (ensures_onDisk.mpr (stores.mono ?_ ?_))
      · rintro - between ⟨-, changed, unfaulted⟩
        have later := ih (fun twelve => unfaulted (steady twelve))
          (fun c member => usable c (List.mem_append_left [last] member)) apartRest more
        refine later.mono ?_ fun _ _ why none => why (unfaulted none)
        rintro - after ⟨memory, given, same⟩
        refine ⟨memory, fun c member => ?_, fun c other => ?_⟩
        · obtain inner | end_ := List.mem_append.mp member
          · exact given c inner
          · rw [List.mem_singleton.mp end_, same last fun inner =>
              lastForeign (List.mem_of_mem_drop inner)]
            exact changed.entry
        · rw [same c fun inner => other (List.mem_append_left [last] inner)]
          refine changed.others c ?_
          rintro rfl
          exact other (List.mem_append_right _ (List.mem_singleton_self c))
      · rintro - after ⟨why, -⟩
        exact why.resolve_left (not_not_intro own.whole)

/-- How many clusters are kept. -/
def keptClusters (clusterCount : ℕ) : ℕ := max 1 clusterCount

/-- **What is removed** from a chain is not free, and the links in the table lead through the
clusters that are kept, and end there, only if all are kept. -/
theorem shrink_linked_iff (sound : vol.Sound) (steady : vol.Steady disk)
    (linked : vol.Linked disk.bytes clusters) (apart : clusters.Nodup) {clusterCount : ℕ}
    (enough : clusterCount ≤ clusters.length) :
    (vol.shrinkChainToLength clusterCount).Ensures (disk, ⟨clusters, true⟩)
      (fun _ after => after.2 = ⟨clusters.take (keptClusters clusterCount), true⟩ ∧
        (∀ c, vol.entry disk.bytes c ≠ 0 → vol.entry after.1.bytes c ≠ 0) ∧
        (∀ c ∈ clusters.drop (keptClusters clusterCount),
          vol.fatType.statusOf (vol.entry after.1.bytes c) = .next vol.fatType.fatPrefix) ∧
        (∀ c ∉ clusters.drop (keptClusters clusterCount),
          vol.entry after.1.bytes c = vol.entry disk.bytes c) ∧
        (vol.Linked after.1.bytes (clusters.take (keptClusters clusterCount)) ↔
          clusters.length ≤ clusterCount ∨ clusters.length = 1))
      fun _ _ => disk.faults ≠ [] := by
  have nonempty := List.length_pos_iff.mpr linked.some
  have count : (if clusterCount ≠ 0 then vol.removeClusters (clusters.length - clusterCount)
      else vol.removeClusters (clusters.length - 1)) =
        vol.removeClusters (clusters.length - keptClusters clusterCount) := by
    unfold keptClusters
    split
    · next some => rw [Nat.max_eq_right (Nat.pos_of_ne_zero some)]
    · next none => rw [not_not.mp none, Nat.max_eq_left (Nat.zero_le 1)]
  have least : 1 ≤ keptClusters clusterCount := Nat.le_max_left 1 clusterCount
  have most : keptClusters clusterCount ≤ clusters.length := Nat.max_le.mpr ⟨nonempty, enough⟩
  have rest : clusters.length - (clusters.length - keptClusters clusterCount) =
      keptClusters clusterCount := Nat.sub_sub_self most
  unfold shrinkChainToLength
  refine Procedure.ensures_bind.mpr (Procedure.ensures_look.mpr ?_)
  dsimp only
  rw [if_pos rfl]
  unfold remember
  refine Procedure.ensures_bind.mpr (Procedure.ensures_change.mpr ?_)
  rw [count]
  refine (removeClusters_ensures sound steady linked.usable apart (by omega)).mono ?_
    fun _ _ why => why
  rintro - after ⟨memory, given, same⟩
  rw [rest] at memory given same
  have status (c : ℕ) (member : c ∈ clusters.drop (keptClusters clusterCount)) :
      vol.fatType.statusOf (vol.entry after.1.bytes c) = .next vol.fatType.fatPrefix := by
    rw [given c member]
    exact statusOf_free vol.fatType
  refine ⟨memory, fun c taken => ?_, status, same, ?_⟩
  · by_cases member : c ∈ clusters.drop (keptClusters clusterCount)
    · rw [given c member]
      cases vol.fatType <;> decide
    · rwa [same c member]
  · have all : clusters.length ≤ clusterCount ∨ clusters.length = 1 ↔
        keptClusters clusterCount = clusters.length := by
      unfold keptClusters at least most ⊢
      omega
    rw [all]
    constructor
    · intro ends
      by_contra fewer
      have inside : keptClusters clusterCount < clusters.length := by omega
      -- The last cluster that is kept still names the next one.
      have last := List.getElem?_eq_getElem (show keptClusters clusterCount - 1 < clusters.length by
        omega)
      have there : (clusters.take (keptClusters clusterCount))[keptClusters clusterCount - 1]? =
          some clusters[keptClusters clusterCount - 1] := by
        rw [List.getElem?_take_of_lt (by omega), last]
      have stored := ends.status _ _ there
      have before := linked.status _ _ last
      have end_ : (clusters.take (keptClusters clusterCount))[keptClusters clusterCount - 1 + 1]? =
          none := by
        refine List.getElem?_eq_none ?_
        rw [List.length_take]
        omega
      have next : clusters[keptClusters clusterCount - 1 + 1]? =
          some clusters[keptClusters clusterCount] := by
        rw [Nat.sub_add_cancel least]
        exact List.getElem?_eq_getElem inside
      have kept : clusters[keptClusters clusterCount - 1] ∉
          clusters.drop (keptClusters clusterCount) := by
        intro member
        obtain ⟨i, index⟩ := List.mem_iff_getElem?.mp member
        rw [List.getElem?_drop] at index
        have equal := (List.getElem?_inj (by omega) apart).mp (last.trans index.symm)
        omega
      rw [same _ kept, before, next, end_] at stored
      cases stored
    · intro whole
      rw [whole, List.take_length]
      refine linked.congr fun c member => same c ?_
      rw [whole, List.drop_length]
      exact List.not_mem_nil

/-- A floppy disk with a file of two clusters. -/
def twoClusters : Disk where
  bytes := fun at_ => if at_ = 515 then 0x03 else if at_ = 516 then 0xF0 else
    if at_ = 517 then 0xFF else 0
  faults := []

theorem linked_twoClusters : floppy.Linked twoClusters.bytes [2, 3] := by
  refine ⟨List.cons_ne_nil _ _, fun c member => ?_, fun i c there => ?_⟩
  · obtain rfl | rfl : c = 2 ∨ c = 3 := by simpa using member
    · exact ⟨by decide, by decide, by decide⟩
    · exact ⟨by decide, by decide, by decide⟩
  · obtain _ | _ | i := i
    · cases there
      decide +kernel
    · cases there
      decide +kernel
    · cases there

end Vol

end JsOS.Core.Fs.Fat
