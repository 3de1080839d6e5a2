import JsOS.Core.Fs.Fat.LinkedClusters

/-! # The sectors of clusters

The sectors of the clusters of a file, one after the other, are the blocks in which its content is
scattered. The groups of a chain are runs of these blocks (`Covers`), so that reading and writing
them reads and writes the content.
-/

namespace JsOS.Core.Fs.Fat

open Framing (Bytes)
open Scattered (view Run Within)

namespace Vol

variable (vol : Vol)

/-- The first sector of a cluster that a file may have. -/
def clusterSector (c : ℕ) : ℕ := vol.firstDataSector + (c - 2) * vol.sectorsPerCluster

/-- The sectors of some clusters, one after the other. -/
def sectorsOf (clusters : List ℕ) : List ℕ :=
  clusters.flatMap fun c => List.range' (vol.clusterSector c) vol.sectorsPerCluster

variable {vol} {clusters : List ℕ} {c k : ℕ}

theorem firstSectorOfCluster_eq (two : 2 ≤ c) :
    vol.firstSectorOfCluster c = vol.clusterSector c := by
  unfold firstSectorOfCluster clusterSector
  push_cast [two]
  rfl

theorem clusterSector_succ (two : 2 ≤ c) :
    vol.clusterSector (c + 1) = vol.clusterSector c + vol.sectorsPerCluster := by
  unfold clusterSector
  have next : c + 1 - 2 = (c - 2) + 1 := by omega
  rw [next, Nat.succ_mul, Nat.add_assoc]

theorem length_sectorsOf (clusters : List ℕ) :
    (vol.sectorsOf clusters).length = clusters.length * vol.sectorsPerCluster := by
  unfold sectorsOf
  simp [List.length_flatMap]

@[simp] theorem sectorsOf_append (first second : List ℕ) :
    vol.sectorsOf (first ++ second) = vol.sectorsOf first ++ vol.sectorsOf second :=
  List.flatMap_append

/-- The sectors of one of the clusters. -/
theorem getElem?_sectorsOf (there : clusters[k]? = some c) {j : ℕ}
    (inside : j < vol.sectorsPerCluster) :
    (vol.sectorsOf clusters)[k * vol.sectorsPerCluster + j]? = some (vol.clusterSector c + j) := by
  have bound := (List.getElem?_eq_some_iff.mp there).1
  have split : clusters = clusters.take k ++ c :: clusters.drop (k + 1) := by
    rw [← (List.getElem?_eq_some_iff.mp there).2, List.getElem_cons_drop, List.take_append_drop]
  have front : (vol.sectorsOf (clusters.take k)).length = k * vol.sectorsPerCluster := by
    rw [length_sectorsOf, List.length_take_of_le bound.le]
  rw [split, sectorsOf_append, List.getElem?_append_right (by omega), front,
    Nat.add_sub_cancel_left]
  unfold sectorsOf
  rw [List.flatMap_cons, List.getElem?_append_left (by rwa [List.length_range']),
    List.getElem?_range' inside, Nat.one_mul]

/-- A sector of the clusters belongs to one of them. -/
theorem mem_sectorsOf {sector : ℕ} : sector ∈ vol.sectorsOf clusters ↔
    ∃ c ∈ clusters, vol.clusterSector c ≤ sector ∧
      sector < vol.clusterSector c + vol.sectorsPerCluster := by
  unfold sectorsOf
  simp [List.mem_flatMap, List.mem_range'_1]

/-- Different clusters have different sectors. -/
theorem cluster_eq_of_sector {d sector : ℕ} (twoC : 2 ≤ c) (twoD : 2 ≤ d)
    (inC : vol.clusterSector c ≤ sector ∧ sector < vol.clusterSector c + vol.sectorsPerCluster)
    (inD : vol.clusterSector d ≤ sector ∧ sector < vol.clusterSector d + vol.sectorsPerCluster) :
    c = d := by
  have apart {low high : ℕ} (two : 2 ≤ low) (less : low < high) :
      vol.clusterSector low + vol.sectorsPerCluster ≤ vol.clusterSector high := by
    unfold clusterSector
    have step := Nat.mul_le_mul_right vol.sectorsPerCluster
      (by omega : low - 2 + 1 ≤ high - 2)
    rw [Nat.succ_mul] at step
    omega
  obtain less | same | more := Nat.lt_trichotomy c d
  · have behind := apart twoC less
    omega
  · exact same
  · have behind := apart twoD more
    omega

/-- No sector belongs to two clusters of a file. -/
theorem nodup_sectorsOf (apart : clusters.Nodup) (two : ∀ c ∈ clusters, 2 ≤ c) :
    (vol.sectorsOf clusters).Nodup := by
  refine List.nodup_flatMap.mpr ⟨fun _ _ => List.nodup_range', ?_⟩
  refine List.Pairwise.imp_of_mem ?_ apart
  intro c d memberC memberD other sector inC inD
  rw [List.mem_range'_1] at inC inD
  exact other (cluster_eq_of_sector (two c memberC) (two d memberD) inC inD)

/-- The sectors of a file are on the device, behind the table. -/
theorem Linked.sector_lt (sound : vol.Sound) {contents : ℤ → UInt8}
    (linked : vol.Linked contents clusters) {sector : ℕ}
    (member : sector ∈ vol.sectorsOf clusters) :
    vol.firstDataSector ≤ sector ∧ sector < vol.volume.numSectors := by
  obtain ⟨c, file, low, high⟩ := mem_sectorsOf.mp member
  obtain ⟨two, below, -⟩ := linked.usable c file
  have inside := sound.inside
  unfold clusterSector at low high
  refine ⟨by omega, ?_⟩
  have last : ((c - 2 + 1 : ℕ) : ℤ) * vol.sectorsPerCluster ≤
      vol.countofClusters * vol.sectorsPerCluster :=
    Int.mul_le_mul_of_nonneg_right (by omega) (by omega)
  have step : (c - 2 + 1) * vol.sectorsPerCluster =
      (c - 2) * vol.sectorsPerCluster + vol.sectorsPerCluster := Nat.succ_mul _ _
  have whole : (((c - 2 + 1) * vol.sectorsPerCluster : ℕ) : ℤ) =
      ((c - 2 + 1 : ℕ) : ℤ) * vol.sectorsPerCluster := Nat.cast_mul _ _
  omega

/-- A place in the sectors of two files is in a cluster of both. -/
theorem Linked.exists_of_within {contents contents' : ℤ → UInt8} {other : List ℕ}
    (linked : vol.Linked contents clusters) (linked' : vol.Linked contents' other) {place : ℤ}
    (within : Within vol.sectorSize (vol.sectorsOf clusters) place)
    (within' : Within vol.sectorSize (vol.sectorsOf other) place) :
    ∃ c ∈ clusters, c ∈ other := by
  obtain ⟨sector, member, low, high⟩ := within
  obtain ⟨sector', member', low', high'⟩ := within'
  have same : sector = sector' := by
    have sooner : (sector : ℤ) * vol.sectorSize < (sector' + 1 : ℕ) * vol.sectorSize := by
      push_cast
      rw [add_mul]
      omega
    have later : (sector' : ℤ) * vol.sectorSize < (sector + 1 : ℕ) * vol.sectorSize := by
      push_cast
      rw [add_mul]
      omega
    have below := Nat.lt_of_mul_lt_mul_right (by exact_mod_cast sooner :
      sector * vol.sectorSize < (sector' + 1) * vol.sectorSize)
    have above := Nat.lt_of_mul_lt_mul_right (by exact_mod_cast later :
      sector' * vol.sectorSize < (sector + 1) * vol.sectorSize)
    omega
  subst same
  obtain ⟨c, file, inC⟩ := mem_sectorsOf.mp member
  obtain ⟨d, file', inD⟩ := mem_sectorsOf.mp member'
  obtain rfl := cluster_eq_of_sector (linked.usable c file).two (linked'.usable d file').two inC inD
  exact ⟨c, file, file'⟩

end Vol

/-! ## Groups are runs -/

/-- The groups are runs of blocks, one behind the other. -/
def Covers (blocks : List ℕ) : ℕ → List Vol.Group → Prop
  | _, [] => True
  | i, group :: groups =>
      ∃ first : ℕ, group.firstSector = first ∧ 0 < group.numSectors ∧
        Run blocks i first group.numSectors ∧ Covers blocks (i + group.numSectors) groups

/-- How many sectors some groups have. -/
def totalSectors (groups : List Vol.Group) : ℕ := (groups.map Vol.Group.numSectors).sum

namespace Vol

variable {vol : Vol} {clusters segment : List ℕ} {k : ℕ}

/-- The groups behind an open one. -/
theorem groupsFrom_covers (clusters_ : 0 < vol.sectorsPerCluster) (two : ∀ c ∈ clusters, 2 ≤ c)
    (there : ∀ j c, segment[j]? = some c → clusters[k + j]? = some c) {group : Group} {i first : ℕ}
    (begins : group.firstSector = first) (some : 0 < group.numSectors)
    (run : Run (vol.sectorsOf clusters) i first group.numSectors)
    (ends : i + group.numSectors = k * vol.sectorsPerCluster) (natural : 2 ≤ group.nextCluster)
    (next : first + group.numSectors = vol.clusterSector group.nextCluster) :
    Covers (vol.sectorsOf clusters) i (vol.groupsFrom group segment) ∧
      totalSectors (vol.groupsFrom group segment) =
        group.numSectors + segment.length * vol.sectorsPerCluster := by
  induction segment generalizing k group i first with
  | nil =>
      refine ⟨⟨first, begins, some, run, trivial⟩, ?_⟩
      simp [groupsFrom, totalSectors]
  | cons c segment ih =>
      have here : clusters[k]? = Option.some c := there 0 c rfl
      have rest (j d : ℕ) (later : segment[j]? = Option.some d) :
          clusters[k + 1 + j]? = Option.some d := by
        rw [Nat.add_right_comm]
        exact there (j + 1) d later
      have twoC := two c (List.mem_of_getElem? here)
      have own : Run (vol.sectorsOf clusters) (k * vol.sectorsPerCluster) (vol.clusterSector c)
          vol.sectorsPerCluster := fun j inside => getElem?_sectorsOf here inside
      have succ : k * vol.sectorsPerCluster + vol.sectorsPerCluster =
          (k + 1) * vol.sectorsPerCluster := (Nat.succ_mul _ _).symm
      have length : (c :: segment).length * vol.sectorsPerCluster =
          segment.length * vol.sectorsPerCluster + vol.sectorsPerCluster := Nat.succ_mul _ _
      unfold groupsFrom
      by_cases gap : c ≠ group.nextCluster
      · rw [if_pos gap]
        have begins' : (vol.group c 0).firstSector = (vol.clusterSector c : ℕ) := by
          unfold Vol.group
          rw [firstSectorOfCluster_eq twoC]
          exact Int.add_zero _
        obtain ⟨covers, total⟩ := @ih (k + 1) rest (vol.group c 0) (k * vol.sectorsPerCluster)
          (vol.clusterSector c) begins' clusters_ own succ (by change 2 ≤ c + 1; omega)
          (clusterSector_succ twoC).symm
        refine ⟨⟨first, begins, some, run, ends ▸ covers⟩, ?_⟩
        change group.numSectors + totalSectors _ = _
        rw [total, length]
        change _ + (vol.sectorsPerCluster - 0 + _) = _
        omega
      · obtain rfl : c = group.nextCluster := not_not.mp gap
        rw [if_neg gap]
        have longer : Run (vol.sectorsOf clusters) i first
            (group.numSectors + vol.sectorsPerCluster) := by
          intro j inside
          obtain inner | outer := Nat.lt_or_ge j group.numSectors
          · exact run j inner
          · have place : i + j = k * vol.sectorsPerCluster + (j - group.numSectors) := by omega
            have sector : first + j =
                vol.clusterSector group.nextCluster + (j - group.numSectors) := by omega
            rw [place, sector]
            exact own _ (by omega)
        obtain ⟨covers, total⟩ := @ih (k + 1) rest
          ⟨group.nextCluster + 1, group.firstSector, group.numSectors + vol.sectorsPerCluster⟩
          i first begins (Nat.add_pos_left some _) longer (by dsimp only; omega)
          (by dsimp only; omega) (by
            dsimp only
            rw [clusterSector_succ natural]
            omega)
        refine ⟨covers, total.trans ?_⟩
        rw [length]
        dsimp only
        omega

/-- **The groups of some clusters are runs of their sectors**, all of them from the first one on. -/
theorem groupsOf_covers (clusters_ : 0 < vol.sectorsPerCluster) (two : ∀ c ∈ clusters, 2 ≤ c)
    (there : ∀ j c, segment[j]? = some c → clusters[k + j]? = some c) {sectorOffset : ℕ}
    (inside : sectorOffset < vol.sectorsPerCluster) :
    Covers (vol.sectorsOf clusters) (k * vol.sectorsPerCluster + sectorOffset)
        (vol.groupsOf sectorOffset segment) ∧
      totalSectors (vol.groupsOf sectorOffset segment) =
        segment.length * vol.sectorsPerCluster - sectorOffset := by
  cases segment with
  | nil =>
      refine ⟨trivial, ?_⟩
      simp [groupsOf, totalSectors]
  | cons c segment =>
      have here : clusters[k]? = some c := there 0 c rfl
      have rest (j d : ℕ) (later : segment[j]? = some d) : clusters[k + 1 + j]? = some d := by
        rw [Nat.add_right_comm]
        exact there (j + 1) d later
      have twoC := two c (List.mem_of_getElem? here)
      have begins : (vol.group c sectorOffset).firstSector =
          (vol.clusterSector c + sectorOffset : ℕ) := by
        unfold Vol.group
        rw [firstSectorOfCluster_eq twoC]
        exact (Nat.cast_add _ _).symm
      have run : Run (vol.sectorsOf clusters) (k * vol.sectorsPerCluster + sectorOffset)
          (vol.clusterSector c + sectorOffset) (vol.sectorsPerCluster - sectorOffset) := by
        intro j below
        rw [Nat.add_assoc, Nat.add_assoc]
        exact getElem?_sectorsOf here (by omega)
      obtain ⟨covers, total⟩ := @groupsFrom_covers vol clusters segment (k + 1) clusters_ two rest
        (vol.group c sectorOffset) _ _ begins (Nat.sub_pos_of_lt inside) run
        (by
          rw [Nat.succ_mul]
          change _ + (vol.sectorsPerCluster - sectorOffset) = _
          omega)
        (by change 2 ≤ c + 1; omega) (by
          change _ + (vol.sectorsPerCluster - sectorOffset) = vol.clusterSector (c + 1)
          rw [clusterSector_succ twoC]
          omega)
      refine ⟨covers, total.trans ?_⟩
      rw [List.length_cons, Nat.succ_mul]
      change vol.sectorsPerCluster - sectorOffset + _ = _
      omega

end Vol


/-! ## Reading and writing groups -/

namespace Vol

variable {vol : Vol} {blocks : List ℕ} {i : ℕ} {groups : List Group} {disk : Disk}

/-- What a procedure comes to whose errors are kept: none of its failures is an exception. -/
theorem ensures_keepError {α : Type} {io : Io α} {done : Except Failure α → Disk → Prop}
    {failed : Failure → Disk → Prop}
    (ensures : io.Ensures disk (fun value after => done (.ok value) after)
      fun failure after => failure.isError = true ∧ done (.error failure) after) :
    (keepError io).Ensures disk done failed := by
  refine Procedure.ensures_bind.mpr (Procedure.ensures_attempt.mpr (ensures.mono ?_ ?_))
  · exact fun _ _ came => came
  · rintro failure after ⟨error, came⟩
    dsimp only
    rw [if_pos error]
    exact came

/-- A sector that is read fails with an error only. -/
theorem readSectors_ensures {sector : ℕ} (present : sector < vol.volume.numSectors) (length : ℕ)
    (disk : Disk) :
    (vol.readSectors sector length).Ensures disk
      (fun d after => d = Extent.read disk.bytes ((sector * vol.sectorSize : ℕ) : ℤ) length ∧
        after.bytes = disk.bytes ∧ (disk.faults = [] → after.faults = []))
      fun failure after => failure.isError = true ∧ disk.faults ≠ [] ∧
        after.bytes = disk.bytes := by
  unfold readSectors
  rw [if_pos (by exact_mod_cast present), Nat.cast_mul]
  have reads := vol.volume.readSectors_ensures sector length disk
  unfold Driver.readSectors Procedure.Ensures at reads ⊢
  dsimp only at reads ⊢
  cases fault : disk.faults.head?.join with
  | none =>
      rw [fault] at reads
      exact reads
  | some sectors =>
      rw [fault] at reads
      exact ⟨rfl, reads⟩

/-- **Groups are read** as the content of their blocks. -/
theorem readGroups_ensures (positive : 0 < vol.sectorSize)
    (present : ∀ sector ∈ blocks, sector < vol.volume.numSectors)
    (covers : Covers blocks i groups) {length : ℕ}
    (short : length ≤ totalSectors groups * vol.sectorSize) :
    (vol.readGroups groups length).Ensures disk
      (fun dest after => dest = Extent.read (view vol.sectorSize blocks disk.bytes)
          ((i * vol.sectorSize : ℕ) : ℤ) length ∧ after.bytes = disk.bytes ∧
        (disk.faults = [] → after.faults = []))
      fun failure after => failure.isError = true ∧ disk.faults ≠ [] ∧
        after.bytes = disk.bytes := by
  induction groups generalizing i length disk with
  | nil =>
      obtain rfl : length = 0 := by
        simpa [totalSectors] using short
      exact ⟨rfl, rfl, fun none => none⟩
  | cons group groups ih =>
      obtain ⟨first, begins, some, run, covers⟩ := covers
      have member := List.mem_of_getElem? (run 0 some)
      rw [Nat.add_zero] at member
      have total : totalSectors (group :: groups) * vol.sectorSize =
          group.numSectors * vol.sectorSize + totalSectors groups * vol.sectorSize :=
        Nat.add_mul _ _ _
      have own : min (group.numSectors * vol.sectorSize) length ≤
          group.numSectors * vol.sectorSize := Nat.min_le_left _ _
      unfold readGroups
      rw [begins]
      refine Procedure.ensures_bind.mpr (ensures_keepError
        ((readSectors_ensures (present first member) _ disk).mono ?_ ?_))
      · rintro _ between ⟨rfl, same, unfaulted⟩
        refine Procedure.ensures_bind.mpr (ensures_keepError ((@ih _ between covers _
          (by omega)).mono ?_ ?_))
        · rintro _ after ⟨rfl, same', unfaulted'⟩
          refine ⟨?_, same'.trans same, fun none => unfaulted' (unfaulted none)⟩
          rw [same, ← Scattered.read_view positive run own]
          obtain whole | part := Nat.le_total (group.numSectors * vol.sectorSize) length
          · obtain ⟨rest, rfl⟩ := Nat.exists_eq_add_of_le whole
            rw [Nat.min_eq_left whole, Nat.add_sub_cancel_left, Nat.add_mul, Nat.cast_add,
              ← Extent.read_add]
          · rw [Nat.min_eq_right part, Nat.sub_self, Extent.read_zero, List.append_nil]
        · rintro failure after ⟨error, faulted, same'⟩
          exact ⟨error, error, fun none => faulted (unfaulted none), same'.trans same⟩
      · rintro failure between ⟨error, faulted, same⟩
        refine ⟨error, Procedure.ensures_bind.mpr (ensures_keepError ((@ih _ between covers _
          (by omega)).mono ?_ ?_))⟩
        · rintro _ after ⟨-, same', -⟩
          exact ⟨error, faulted, same'.trans same⟩
        · rintro other after ⟨error', -, same'⟩
          exact ⟨error', error, faulted, same'.trans same⟩

/-- What lies in the blocks, as a content. -/
def blockContent (vol : Vol) (blocks : List ℕ) (contents : ℤ → UInt8) : Content where
  size := blocks.length
  bytes := view vol.sectorSize blocks contents

/-- A sector that is written fails with an error only, and may have been written in part. -/
theorem writeSectors_ensures {sector : ℕ} (present : sector < vol.volume.numSectors)
    (writable : vol.ro = false) {data : Bytes} (multiple : vol.sectorSize ∣ data.length)
    (disk : Disk) :
    (vol.writeSectors sector data).Ensures disk
      (fun _ after => after.bytes =
          Extent.write disk.bytes ((sector * vol.sectorSize : ℕ) : ℤ) data ∧
        (disk.faults = [] → after.faults = []))
      fun failure after => failure.isError = true ∧ disk.faults ≠ [] ∧ ∃ count, after.bytes =
        Extent.write disk.bytes ((sector * vol.sectorSize : ℕ) : ℤ) (data.take count) := by
  unfold writeSectors
  rw [if_neg (not_not_intro (Nat.mod_eq_zero_of_dvd multiple)), writable,
    if_neg Bool.false_ne_true, if_pos (by exact_mod_cast present), Nat.cast_mul]
  have writes := vol.volume.writeSectors_ensures sector data disk
  unfold Driver.writeSectors Procedure.Ensures at writes ⊢
  dsimp only at writes ⊢
  cases fault : disk.faults.head?.join with
  | none =>
      rw [fault] at writes
      exact writes
  | some sectors =>
      rw [fault] at writes
      obtain ⟨faulted, -⟩ := writes
      exact ⟨rfl, faulted, _, rfl⟩

/-- A run of blocks that is written, or a part of it. -/
theorem blockContent_write (positive : 0 < vol.sectorSize) (apart : blocks.Nodup) {first count : ℕ}
    (run : Scattered.Run blocks i first count) (within : i + count ≤ blocks.length) {data : Bytes}
    (short : data.length ≤ count * vol.sectorSize) (contents : ℤ → UInt8) :
    (vol.blockContent blocks contents).Written vol.sectorSize
      (vol.blockContent blocks
        (Extent.write contents ((first * vol.sectorSize : ℕ) : ℤ) data))
      ((i * vol.sectorSize : ℕ) : ℤ) data := by
  refine ⟨Nat.le_refl _, ?_, fun at_ natural inside => ?_⟩
  · have reach := Nat.mul_le_mul_right vol.sectorSize within
    rw [Nat.add_mul] at reach
    change ((i * vol.sectorSize : ℕ) : ℤ) + data.length ≤ blocks.length * vol.sectorSize
    exact_mod_cast (by omega : i * vol.sectorSize + data.length ≤ blocks.length * vol.sectorSize)
  · have reach := Nat.mul_le_mul_right vol.sectorSize within
    rw [Nat.add_mul] at reach
    have reach : ((i * vol.sectorSize : ℕ) : ℤ) + data.length ≤
        blocks.length * vol.sectorSize := by
      exact_mod_cast (by omega : i * vol.sectorSize + data.length ≤
        blocks.length * vol.sectorSize)
    refine Scattered.view_write positive apart run short natural ?_
    change at_ < blocks.length * vol.sectorSize ∨ _ at inside
    omega

/-- **Groups are written** as the content of their blocks, and nothing else is; if the device fails,
each byte is the old or the new one. -/
theorem writeGroups_ensures (positive : 0 < vol.sectorSize) (writable : vol.ro = false)
    (apart : blocks.Nodup) (present : ∀ sector ∈ blocks, sector < vol.volume.numSectors)
    (within : i ≤ blocks.length) (covers : Covers blocks i groups) {data : Bytes}
    (short : data.length ≤ totalSectors groups * vol.sectorSize)
    (multiple : vol.sectorSize ∣ data.length) :
    (vol.writeGroups groups data).Ensures disk
      (fun _ after => (vol.blockContent blocks disk.bytes).Written vol.sectorSize
          (vol.blockContent blocks after.bytes) ((i * vol.sectorSize : ℕ) : ℤ) data ∧
        (∀ place, ¬Within vol.sectorSize blocks place → after.bytes place = disk.bytes place) ∧
        (disk.faults = [] → after.faults = []))
      fun failure after => failure.isError = true ∧ disk.faults ≠ [] ∧
        (vol.blockContent blocks disk.bytes).Touched vol.sectorSize
          (vol.blockContent blocks after.bytes) ((i * vol.sectorSize : ℕ) : ℤ) data ∧
        ∀ place, ¬Within vol.sectorSize blocks place → after.bytes place = disk.bytes place := by
  induction groups generalizing i data disk with
  | nil =>
      obtain rfl : data = [] := by
        simpa [totalSectors] using short
      refine ⟨⟨Nat.le_refl _, ?_, fun _ _ _ => ?_⟩, fun _ _ => rfl, fun none => none⟩
      · change ((i * vol.sectorSize : ℕ) : ℤ) + (0 : ℕ) ≤ blocks.length * vol.sectorSize
        exact_mod_cast Nat.mul_le_mul_right vol.sectorSize within
      · rw [Extent.write_nil]
  | cons group groups ih =>
      obtain ⟨first, begins, some, run, covers⟩ := covers
      have member := List.mem_of_getElem? (run 0 some)
      rw [Nat.add_zero] at member
      have room := run.le_length some
      have total : totalSectors (group :: groups) * vol.sectorSize =
          group.numSectors * vol.sectorSize + totalSectors groups * vol.sectorSize :=
        Nat.add_mul _ _ _
      have all : data.take (group.numSectors * vol.sectorSize) ++
          data.drop (group.numSectors * vol.sectorSize) = data := List.take_append_drop _ _
      have own : (data.take (group.numSectors * vol.sectorSize)).length ≤
          group.numSectors * vol.sectorSize := List.length_take_le _ _
      have multipleOwn : vol.sectorSize ∣
          (data.take (group.numSectors * vol.sectorSize)).length := by
        rw [List.length_take]
        obtain less | more := Nat.le_total (group.numSectors * vol.sectorSize) data.length
        · rw [Nat.min_eq_left less]
          exact Nat.dvd_mul_left _ _
        · rwa [Nat.min_eq_right more]
      have multipleRest : vol.sectorSize ∣
          (data.drop (group.numSectors * vol.sectorSize)).length := by
        rw [List.length_drop]
        exact Nat.dvd_sub multiple (Nat.dvd_mul_left _ _)
      have shortRest : (data.drop (group.numSectors * vol.sectorSize)).length ≤
          totalSectors groups * vol.sectorSize := by
        rw [List.length_drop]
        omega
      have reach := Nat.mul_le_mul_right vol.sectorSize room
      rw [Nat.add_mul] at reach
      have fits : ((i * vol.sectorSize : ℕ) : ℤ) +
          (data.take (group.numSectors * vol.sectorSize)).length ≤
            blocks.length * vol.sectorSize := by
        exact_mod_cast (by omega : i * vol.sectorSize +
          (data.take (group.numSectors * vol.sectorSize)).length ≤
            blocks.length * vol.sectorSize)
      -- the rest begins where the group ends, unless there is none
      have behind (more : data.drop (group.numSectors * vol.sectorSize) ≠ []) :
          (((i + group.numSectors) * vol.sectorSize : ℕ) : ℤ) = ((i * vol.sectorSize : ℕ) : ℤ) +
            (data.take (group.numSectors * vol.sectorSize)).length := by
        have full : (data.take (group.numSectors * vol.sectorSize)).length =
            group.numSectors * vol.sectorSize := by
          refine List.length_take_of_le ?_
          by_contra less
          exact more (List.drop_of_length_le (by omega))
        rw [full, Nat.add_mul, Nat.cast_add]
      have written {before after : ℤ → UInt8}
          (two : (vol.blockContent blocks before).Written vol.sectorSize
            (vol.blockContent blocks after) (((i + group.numSectors) * vol.sectorSize : ℕ) : ℤ)
            (data.drop (group.numSectors * vol.sectorSize))) :
          (vol.blockContent blocks before).Written vol.sectorSize (vol.blockContent blocks after)
            (((i * vol.sectorSize : ℕ) : ℤ) +
              (data.take (group.numSectors * vol.sectorSize)).length)
            (data.drop (group.numSectors * vol.sectorSize)) := by
        by_cases none : data.drop (group.numSectors * vol.sectorSize) = []
        · rw [none] at two ⊢
          exact two.nil fits
        · rwa [behind none] at two
      have touched {before after : ℤ → UInt8}
          (two : (vol.blockContent blocks before).Touched vol.sectorSize
            (vol.blockContent blocks after) (((i + group.numSectors) * vol.sectorSize : ℕ) : ℤ)
            (data.drop (group.numSectors * vol.sectorSize))) :
          (vol.blockContent blocks before).Touched vol.sectorSize (vol.blockContent blocks after)
            (((i * vol.sectorSize : ℕ) : ℤ) +
              (data.take (group.numSectors * vol.sectorSize)).length)
            (data.drop (group.numSectors * vol.sectorSize)) := by
        by_cases none : data.drop (group.numSectors * vol.sectorSize) = []
        · rw [none] at two ⊢
          exact two.nil
        · rwa [behind none] at two
      have beside {places : Bytes} (fit : places.length ≤ group.numSectors * vol.sectorSize)
          (place : ℤ) (outside : ¬Within vol.sectorSize blocks place) :
          Extent.write disk.bytes ((first * vol.sectorSize : ℕ) : ℤ) places place =
            disk.bytes place :=
        Extent.write_outside fun inside => outside (run.within positive fit inside)
      unfold writeGroups
      rw [begins]
      refine Procedure.ensures_bind.mpr (ensures_keepError
        ((writeSectors_ensures (present first member) writable multipleOwn disk).mono ?_ ?_))
      · rintro - between ⟨changed, unfaulted⟩
        have one := blockContent_write positive apart run room own disk.bytes
        rw [← changed] at one
        have same (place : ℤ) (outside : ¬Within vol.sectorSize blocks place) :
            between.bytes place = disk.bytes place := by
          rw [changed, beside own place outside]
        refine Procedure.ensures_bind.mpr (ensures_keepError
          ((@ih _ between room covers _ shortRest multipleRest).mono ?_ ?_))
        · rintro - after ⟨two, same', unfaulted'⟩
          have both := one.append (written two)
          rw [all] at both
          exact ⟨both, fun place outside => (same' place outside).trans (same place outside),
            fun none => unfaulted' (unfaulted none)⟩
        · rintro failure after ⟨error, faulted, two, same'⟩
          have both := one.append_touched (touched two)
          rw [all] at both
          exact ⟨error, error, fun none => faulted (unfaulted none), both,
            fun place outside => (same' place outside).trans (same place outside)⟩
      · rintro failure between ⟨error, faulted, count, changed⟩
        have short' : ((data.take (group.numSectors * vol.sectorSize)).take count).length ≤
            group.numSectors * vol.sectorSize := (List.length_take_le' _ _).trans own
        have part := (blockContent_write positive apart run room short' disk.bytes).touched.append
          ((data.take (group.numSectors * vol.sectorSize)).drop count)
        rw [← changed, List.take_append_drop] at part
        have same (place : ℤ) (outside : ¬Within vol.sectorSize blocks place) :
            between.bytes place = disk.bytes place := by
          rw [changed, beside short' place outside]
        refine ⟨error, Procedure.ensures_bind.mpr (ensures_keepError
          ((@ih _ between room covers _ shortRest multipleRest).mono ?_ ?_))⟩
        · rintro - after ⟨two, same', -⟩
          have both := part.append_touched (touched two.touched)
          rw [all] at both
          exact ⟨error, faulted, both,
            fun place outside => (same' place outside).trans (same place outside)⟩
        · rintro other after ⟨error', -, two, same'⟩
          have both := part.append_touched (touched two)
          rw [all] at both
          exact ⟨error', error, faulted, both,
            fun place outside => (same' place outside).trans (same place outside)⟩

end Vol

end JsOS.Core.Fs.Fat
