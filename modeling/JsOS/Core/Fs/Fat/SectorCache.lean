import JsOS.Core.Fs.Fat.Volume
import JsOS.Library.Refinement

/-! # The cache of sectors

Each chain reads and writes through a cache of sectors of its own. As long as every access is to
whole sectors and none fails, nobody can tell it from the device (`wrapDriver_transparent`): what it
has of a sector is what lies there, whichever sectors it has thrown out.
-/

namespace JsOS.Core.Fs.Fat

open Framing (Bytes)

/-! ## The cache -/

/-- `advice`. -/
inductive Advice where
  | normal | random | sequential | willneed | noreuse | dontneed
  deriving DecidableEq, Repr

/-- Whether nothing is kept under an advice. -/
def Advice.keepsNothing : Advice → Bool
  | sequential | noreuse => true
  | _ => false

/-- `cache` and `advice` of `wrapDriver`: the sectors by their numbers. -/
structure SectorCache where
  cache : List (ℕ × Bytes)
  advice : Advice
  deriving DecidableEq, Repr

/-- The cache of a new chain. -/
def SectorCache.empty : SectorCache := ⟨[], .normal⟩

/-- `cache[i]`. -/
def sectorAt (cache : List (ℕ × Bytes)) (i : ℕ) : Option Bytes := cache.lookup i

/-- An assignment to `cache[i]`. -/
def setSector (cache : List (ℕ × Bytes)) (i : ℕ) (data : Bytes) : List (ℕ × Bytes) :=
  (i, data) :: cache.filter (·.1 ≠ i)

/-- The first part of `addToCache`: at each sector all that is left of the data is stored. -/
def storeSectors (secSize : ℕ) : ℕ → List (ℕ × Bytes) → ℕ → Bytes → List (ℕ × Bytes)
  | 0, cache, i, data => setSector cache i data
  | rounds + 1, cache, i, data =>
      if data.length > secSize then
        storeSectors secSize rounds (setSector cache i data) (i + 1) (data.drop secSize)
      else setSector cache i data

/-- The sectors that are thrown out: the highest ones, as strings. -/
def evicted (maxSectors : ℕ) (cache : List (ℕ × Bytes)) : List ℕ :=
  ((cache.map Prod.fst).mergeSort fun a b => decide (toString a ≤ toString b)).drop maxSectors

/-- `addToCache`. -/
def SectorCache.addToCache (maxSectors secSize : ℕ) (cache : SectorCache) (i : ℕ) (data : Bytes) :
    SectorCache :=
  if cache.advice.keepsNothing then cache
  else
    let stored := storeSectors secSize data.length cache.cache i data
    { cache with cache := stored.filter (·.1 ∉ evicted maxSectors stored) }

/-! ## Calls -/

/-- What is asked of a driver. -/
inductive SectorCall where
  | readSectors (i : ℕ) (dest : Bytes)
  | writeSectors (i : ℕ) (data : Bytes)
  /-- `advice`, which is for the cache only -/
  | advise (advice : Advice)
  deriving DecidableEq, Repr

/-- How it ends. -/
inductive SectorAnswer where
  | read (result : Except Failure Bytes)
  | wrote (result : Except Failure Unit)
  | advised

/-- A call of `volume`. -/
def Driver.call (volume : Driver) (disk : Disk) : SectorCall → Disk × SectorAnswer
  | .readSectors i dest =>
      let (result, disk) := volume.readSectors i dest.length disk
      (disk, .read result)
  | .writeSectors i data =>
      let (result, disk) := volume.writeSectors i data disk
      (disk, .wrote result)
  | .advise _ => (disk, .advised)

/-- A call of what `wrapDriver` makes of `volume`. -/
def Driver.wrapDriver (volume : Driver) (maxSectors : ℕ) (state : Disk × SectorCache) :
    SectorCall → (Disk × SectorCache) × SectorAnswer
  | .readSectors i dest =>
      match sectorAt state.2.cache i, decide (dest.length = volume.sectorSize) with
      | some data, true =>
          -- `copy` leaves what is behind the data as it is.
          (state, .read (.ok (data.take dest.length ++ dest.drop data.length)))
      | _, _ =>
          match volume.readSectors i dest.length state.1 with
          | (.ok dest, disk) =>
              ((disk, state.2.addToCache maxSectors volume.sectorSize i dest), .read (.ok dest))
          | (.error failure, disk) => ((disk, state.2), .read (.error failure))
  | .writeSectors i data =>
      match volume.writeSectors i data state.1 with
      | (.ok (), disk) =>
          ((disk, state.2.addToCache maxSectors volume.sectorSize i data), .wrote (.ok ()))
      | (.error failure, disk) => ((disk, state.2), .wrote (.error failure))
  | .advise advice =>
      ((state.1, if advice.keepsNothing then ⟨[], advice⟩ else { state.2 with advice }), .advised)

/-- A call that is about whole sectors. -/
def SectorCall.Whole (secSize : ℕ) : SectorCall → Prop
  | .readSectors _ dest => ∃ count, 0 < count ∧ dest.length = count * secSize
  | .writeSectors _ data => ∃ count, 0 < count ∧ data.length = count * secSize
  | .advise _ => True

/-! ## What the cache holds -/

/-- **What is kept of a sector begins with what lies there.** -/
def Coherent (secSize : ℕ) (bytes : ℤ → UInt8) (cache : List (ℕ × Bytes)) : Prop :=
  ∀ i data, (i, data) ∈ cache →
    data.take secSize = Extent.read bytes ((i * secSize : ℕ) : ℤ) secSize

variable {secSize i : ℕ} {bytes : ℤ → UInt8} {cache : List (ℕ × Bytes)} {data : Bytes}

theorem Coherent.sectorAt (coherent : Coherent secSize bytes cache)
    (kept : sectorAt cache i = some data) :
    data.take secSize = Extent.read bytes ((i * secSize : ℕ) : ℤ) secSize := by
  obtain ⟨before, after, rfl, -⟩ := List.lookup_eq_some_iff.mp kept
  exact coherent i data (List.mem_append_right before List.mem_cons_self)

/-- Some sectors of the data are given, and the others are as they should be. -/
theorem coherent_setSector
    (others : ∀ j other, (j, other) ∈ cache → j ≠ i →
      other.take secSize = Extent.read bytes ((j * secSize : ℕ) : ℤ) secSize)
    (there : data.take secSize = Extent.read bytes ((i * secSize : ℕ) : ℤ) secSize) :
    Coherent secSize bytes (setSector cache i data) := by
  intro j other member
  obtain same | old := List.mem_cons.mp member
  · cases same
    exact there
  · obtain ⟨old, apart⟩ := List.mem_filter.mp old
    exact others j other old (of_decide_eq_true apart)

/-- **The sectors of the data are replaced**: what was kept of them does not matter. -/
theorem coherent_storeSectors {count rounds : ℕ} (positive : 0 < secSize) (some : 0 < count)
    (enough : count ≤ rounds + 1)
    (others : ∀ j other, (j, other) ∈ cache → ¬(i ≤ j ∧ j < i + count) →
      other.take secSize = Extent.read bytes ((j * secSize : ℕ) : ℤ) secSize)
    (there : data = Extent.read bytes ((i * secSize : ℕ) : ℤ) (count * secSize)) :
    Coherent secSize bytes (storeSectors secSize rounds cache i data) := by
  have first : data.take secSize = Extent.read bytes ((i * secSize : ℕ) : ℤ) secSize := by
    rw [there, Extent.take_read (Nat.le_mul_of_pos_left secSize some)]
  have length : data.length = count * secSize := by
    rw [there, Extent.length_read]
  have single (one : count = 1) : Coherent secSize bytes (setSector cache i data) :=
    coherent_setSector (fun j other member apart => others j other member (by omega)) first
  induction rounds generalizing cache i data count with
  | zero => exact single (by omega)
  | succ rounds ih =>
      unfold storeSectors
      by_cases more : data.length > secSize
      · rw [if_pos more]
        have two : 1 < count := by
          by_contra fewer
          rw [length, show count = 1 by omega, Nat.one_mul] at more
          exact Nat.lt_irrefl _ more
        have rest : data.drop secSize =
            Extent.read bytes (((i + 1) * secSize : ℕ) : ℤ) ((count - 1) * secSize) := by
          rw [there, Extent.drop_read (Nat.le_mul_of_pos_left secSize some), Nat.sub_mul,
            Nat.one_mul, Nat.add_mul, Nat.one_mul, Nat.cast_add]
        have replaced : ∀ j other, (j, other) ∈ setSector cache i data →
            ¬(i + 1 ≤ j ∧ j < i + 1 + (count - 1)) →
            other.take secSize = Extent.read bytes ((j * secSize : ℕ) : ℤ) secSize := by
          intro j other member outside
          obtain same | old := List.mem_cons.mp member
          · cases same
            exact first
          · obtain ⟨old, apart⟩ := List.mem_filter.mp old
            have apart : j ≠ i := of_decide_eq_true apart
            exact others j other old (by omega)
        have firstOfRest : (data.drop secSize).take secSize =
            Extent.read bytes (((i + 1) * secSize : ℕ) : ℤ) secSize := by
          rw [rest, Extent.take_read (Nat.le_mul_of_pos_left secSize (Nat.sub_pos_of_lt two))]
        refine ih (Nat.sub_pos_of_lt two) (by omega) replaced rest firstOfRest ?_ fun one => ?_
        · rw [rest, Extent.length_read]
        · refine coherent_setSector (fun j other member apart => ?_) firstOfRest
          exact replaced j other member (by omega)
      · rw [if_neg more]
        refine single ?_
        by_contra several
        have two : 2 * secSize ≤ count * secSize := Nat.mul_le_mul_right secSize (by omega)
        omega

/-- **What the cache and the device have in common**: nothing is kept where nothing should be, and
what is kept lies there. -/
structure SectorCache.Agrees (secSize : ℕ) (bytes : ℤ → UInt8) (kept : SectorCache) : Prop where
  nothing : kept.advice.keepsNothing = true → kept.cache = []
  coherent : Coherent secSize bytes kept.cache

/-- What lies in some sectors is added, whatever was kept of them. -/
theorem agrees_addToCache {kept : SectorCache} {count : ℕ} (positive : 0 < secSize)
    (some : 0 < count) (nothing : kept.advice.keepsNothing = true → kept.cache = [])
    (others : ∀ j other, (j, other) ∈ kept.cache → ¬(i ≤ j ∧ j < i + count) →
      other.take secSize = Extent.read bytes ((j * secSize : ℕ) : ℤ) secSize)
    (there : data = Extent.read bytes ((i * secSize : ℕ) : ℤ) (count * secSize))
    (maxSectors : ℕ) :
    (kept.addToCache maxSectors secSize i data).Agrees secSize bytes := by
  have length : data.length = count * secSize := by
    rw [there, Extent.length_read]
  have enough : count ≤ data.length + 1 := by
    rw [length]
    exact (Nat.le_mul_of_pos_right count positive).trans (Nat.le_succ _)
  unfold SectorCache.addToCache
  by_cases none : kept.advice.keepsNothing = true
  · rw [if_pos none]
    refine ⟨nothing, fun j other member => ?_⟩
    rw [nothing none] at member
    cases member
  · rw [if_neg none]
    refine ⟨fun absurd_ => absurd absurd_ none, fun j other member => ?_⟩
    exact coherent_storeSectors positive some enough others there j other
      (List.mem_of_mem_filter member)

/-! ## Nobody can tell -/

/-- The device does not fail, and the cache agrees with it. -/
structure Transparent (volume : Driver) (state : Disk × SectorCache) (disk : Disk) : Prop where
  same : state.1 = disk
  faults : disk.faults = []
  agrees : state.2.Agrees volume.sectorSize disk.bytes

/-- **A call through the cache** ends as one of the device, and leaves what agrees. -/
theorem call_transparent {volume : Driver} {state : Disk × SectorCache} {disk : Disk}
    (positive : 0 < volume.sectorSize) (maxSectors : ℕ)
    (transparent : Transparent volume state disk) {call : SectorCall}
    (whole : call.Whole volume.sectorSize) :
    (volume.wrapDriver maxSectors state call).2 = (volume.call disk call).2 ∧
      Transparent volume (volume.wrapDriver maxSectors state call).1
        (volume.call disk call).1 := by
  obtain ⟨disk', kept⟩ := state
  obtain ⟨rfl, faults, agrees⟩ := transparent
  dsimp only at faults agrees ⊢
  have tail : disk'.faults.tail = [] := by rw [faults]; rfl
  have fine : disk'.faults.head?.join = none := by rw [faults]; rfl
  cases call with
  | readSectors i dest =>
      obtain ⟨count, some_, length⟩ := whole
      have reads : volume.readSectors i dest.length disk' =
          (.ok (Extent.read disk'.bytes ((i : ℤ) * volume.sectorSize) dest.length),
            { disk' with faults := disk'.faults.tail }) := by
        unfold Driver.readSectors
        simp only [fine]
      have place : ((i : ℤ) * volume.sectorSize) = ((i * volume.sectorSize : ℕ) : ℤ) :=
        (Nat.cast_mul _ _).symm
      have same : ({ disk' with faults := disk'.faults.tail } : Disk) = disk' := by
        rw [tail, ← faults]
      rw [same] at reads
      unfold Driver.wrapDriver Driver.call
      simp only [reads]
      split
      · next data kept_ one =>
          have single : dest.length = volume.sectorSize := of_decide_eq_true one
          have there := agrees.coherent.sectorAt kept_
          have long : volume.sectorSize ≤ data.length := by
            have size := congrArg List.length there
            rw [List.length_take, Extent.length_read] at size
            omega
          refine ⟨?_, rfl, faults, agrees⟩
          rw [single, there, List.drop_eq_nil_of_le (by omega), List.append_nil, place]
      · refine ⟨rfl, rfl, faults, ?_⟩
        refine agrees_addToCache positive some_ agrees.nothing
          (fun j other member _ => agrees.coherent j other member) ?_ maxSectors
        rw [place, length]
  | writeSectors i data =>
      obtain ⟨count, some_, length⟩ := whole
      have writes : volume.writeSectors i data disk' =
          (.ok (), { bytes := Extent.write disk'.bytes ((i : ℤ) * volume.sectorSize) data
                     faults := disk'.faults.tail }) := by
        unfold Driver.writeSectors
        simp only [fine]
      have place : ((i : ℤ) * volume.sectorSize) = ((i * volume.sectorSize : ℕ) : ℤ) :=
        (Nat.cast_mul _ _).symm
      unfold Driver.wrapDriver Driver.call
      simp only [writes]
      refine ⟨trivial, rfl, tail, ?_⟩
      refine agrees_addToCache positive some_ agrees.nothing (fun j other member outside => ?_) ?_
        maxSectors
      · rw [agrees.coherent j other member, place]
        refine (Extent.read_write_outside ?_).symm
        obtain lower | upper : j + 1 ≤ i ∨ i + count ≤ j := by omega
        · left
          have below := Nat.mul_le_mul_right volume.sectorSize lower
          rw [Nat.add_mul, Nat.one_mul] at below
          exact_mod_cast below
        · right
          have above := Nat.mul_le_mul_right volume.sectorSize upper
          rw [Nat.add_mul, ← length] at above
          exact_mod_cast above
      · rw [place, ← length, Extent.read_write]
  | advise advice =>
      refine ⟨rfl, rfl, faults, ?_⟩
      unfold Driver.wrapDriver
      dsimp only
      by_cases none : advice.keepsNothing = true
      · rw [if_pos none]
        exact ⟨fun _ => rfl, fun j other member => by cases member⟩
      · rw [if_neg none]
        exact ⟨fun absurd_ => absurd absurd_ none, agrees.coherent⟩

/-- **The cache is transparent**: while the device does not fail, every run of accesses to whole
sectors through the cache has the answers, and leaves the device, that it has without. -/
theorem wrapDriver_transparent {volume : Driver} {disk : Disk} (positive : 0 < volume.sectorSize)
    (maxSectors : ℕ) (faults : disk.faults = []) (calls : List SectorCall)
    (whole : ∀ call ∈ calls, call.Whole volume.sectorSize) :
    Refinement.outputs (volume.wrapDriver maxSectors) (disk, SectorCache.empty) calls =
        Refinement.outputs volume.call disk calls ∧
      (Refinement.final (volume.wrapDriver maxSectors) (disk, SectorCache.empty) calls).1 =
        Refinement.final volume.call disk calls := by
  have start : Transparent volume (disk, SectorCache.empty) disk :=
    ⟨rfl, faults, fun _ => rfl, fun j other member => by cases member⟩
  generalize (disk, SectorCache.empty) = state at start ⊢
  induction calls generalizing state disk with
  | nil => exact ⟨rfl, start.same⟩
  | cons call calls ih =>
      obtain ⟨answer, next⟩ :=
        call_transparent positive maxSectors start (whole call List.mem_cons_self)
      obtain ⟨answers, same⟩ := ih next.faults
        (fun later member => whole later (List.mem_cons_of_mem call member)) _ next
      refine ⟨?_, same⟩
      unfold Refinement.outputs
      rw [answer, answers]

/-- A sector is read twice, the second time from the cache, and written in between. -/
theorem wrapDriver_transparent_floppy :
    Refinement.outputs (floppy.volume.wrapDriver 2048) (⟨fun _ => 7, []⟩, SectorCache.empty)
        [.readSectors 3 (List.replicate 512 0), .writeSectors 2 (List.replicate 1024 1),
          .readSectors 3 (List.replicate 512 0)] =
        Refinement.outputs floppy.volume.call ⟨fun _ => 7, []⟩
          [.readSectors 3 (List.replicate 512 0), .writeSectors 2 (List.replicate 1024 1),
            .readSectors 3 (List.replicate 512 0)] ∧
      (Refinement.final (floppy.volume.wrapDriver 2048) (⟨fun _ => 7, []⟩, SectorCache.empty)
          [.readSectors 3 (List.replicate 512 0), .writeSectors 2 (List.replicate 1024 1),
            .readSectors 3 (List.replicate 512 0)]).1 =
        Refinement.final floppy.volume.call ⟨fun _ => 7, []⟩
          [.readSectors 3 (List.replicate 512 0), .writeSectors 2 (List.replicate 1024 1),
            .readSectors 3 (List.replicate 512 0)] := by
  refine wrapDriver_transparent (by decide) 2048 rfl _ fun call member => ?_
  simp only [List.mem_cons, List.not_mem_nil, or_false] at member
  obtain rfl | rfl | rfl := member
  · exact ⟨1, Nat.one_pos, List.length_replicate⟩
  · exact ⟨2, Nat.two_pos, List.length_replicate⟩
  · exact ⟨1, Nat.one_pos, List.length_replicate⟩

end JsOS.Core.Fs.Fat
