import JsOS.Core.Fs.Fat.ClusterGroups

/-! # The content of a file

The clusters of a file hold its content (`clusterChain_keeps`): reading whole sectors gives it,
writing them changes it and nothing else of the device but the table, in which only the links of
this file change. Nothing but a device that fails makes a read fail, or a write that stays within
the clusters; a write beyond them may find no free cluster.
-/

namespace JsOS.Core.Fs.Fat

open Framing (Bytes)
open Scattered (view Within)

namespace Vol

variable (vol : Vol)

/-- **The clusters of a file hold a content**: they begin as they did at first, the other files are
as they were, and so is everything outside the table and these clusters. -/
structure FileHolds (others : List (List ℕ)) (start : List ℕ) (beside : ℤ → UInt8) (faulty : Prop)
    (content : Content) (state : ChainState) (clusters : List ℕ) : Prop where
  holding : vol.Holding others faulty clusters state
  start : start <+: clusters
  size : content.size = clusters.length * vol.sectorsPerCluster
  bytes : ∀ at_ : ℤ, 0 ≤ at_ → at_ < content.size * vol.sectorSize →
    content.bytes at_ = view vol.sectorSize (vol.sectorsOf clusters) state.1.bytes at_
  beside : ∀ place, vol.OutsideTable place →
    ¬Within vol.sectorSize (vol.sectorsOf clusters) place → state.1.bytes place = beside place

variable {vol} {others : List (List ℕ)} {start clusters : List ℕ} {beside : ℤ → UInt8}
  {faulty : Prop} {content : Content} {state after : ChainState}

/-- The sectors of a file lie outside the table. -/
theorem Linked.outsideTable (sound : vol.Sound) {contents : ℤ → UInt8}
    (linked : vol.Linked contents clusters) {place : ℤ}
    (within : Within vol.sectorSize (vol.sectorsOf clusters) place) : vol.OutsideTable place := by
  obtain ⟨sector, member, low, -⟩ := within
  obtain ⟨behind, -⟩ := linked.sector_lt sound member
  rintro ⟨-, high⟩
  have apart : (vol.resvdSecCnt + vol.fatSz) * vol.sectorSize ≤ sector * vol.sectorSize :=
    Nat.mul_le_mul_right _ (sound.apart.trans behind)
  have apart : ((vol.resvdSecCnt : ℤ) + vol.fatSz) * vol.sectorSize ≤
      sector * vol.sectorSize := by exact_mod_cast apart
  omega

/-- The numbers of the table are those of its bytes. -/
theorem entry_congr (sound : vol.Sound) {before after : ℤ → UInt8} {n : ℕ}
    (below : (n : ℤ) < vol.countofClusters)
    (same : ∀ place, ¬vol.OutsideTable place → after place = before place) :
    vol.entry after n = vol.entry before n := by
  have covered := sound.covers n below
  unfold entry
  congr 1
  refine Extent.read_congr fun i inside => same _ (not_not_intro ?_)
  have upper : ((vol.resvdSecCnt : ℤ) + vol.fatSz) * vol.sectorSize =
      ((vol.resvdSecCnt * vol.sectorSize + vol.fatSz * vol.sectorSize : ℕ) : ℤ) := by
    push_cast
    ring
  have lower : (vol.resvdSecCnt : ℤ) * vol.sectorSize =
      ((vol.resvdSecCnt * vol.sectorSize : ℕ) : ℤ) := (Nat.cast_mul _ _).symm
  rw [upper, lower]
  unfold entryPlace
  omega

/-- Data that is written on the sectors of a file changes no link. -/
theorem Holding.written (sound : vol.Sound) (holding : vol.Holding others faulty clusters state)
    (same : ∀ place, ¬Within vol.sectorSize (vol.sectorsOf clusters) place →
      after.1.bytes place = state.1.bytes place) (memory : after.2 = state.2)
    (unfaulted : state.1.faults = [] → after.1.faults = []) :
    vol.Holding others faulty clusters after := by
  have table (place : ℤ) (inside : ¬vol.OutsideTable place) :
      after.1.bytes place = state.1.bytes place :=
    same place fun within => inside (holding.linked.outsideTable sound within)
  have linked {other : List ℕ} (file : vol.Linked state.1.bytes other) :
      vol.Linked after.1.bytes other :=
    file.congr fun c member => entry_congr sound (file.usable c member).below table
  exact ⟨linked holding.linked, holding.apart, memory ▸ holding.knows,
    fun other file => ⟨linked (holding.others other file).1, (holding.others other file).2⟩,
    fun never => unfaulted (holding.faults never), fun twelve => unfaulted (holding.steady twelve)⟩

/-- **A file that may have been extended**: its old content is the beginning of what its clusters
hold now. -/
structure Extended (vol : Vol) (others : List (List ℕ)) (start : List ℕ) (beside : ℤ → UInt8)
    (faulty : Prop) (content : Content) (after : ChainState) (clusters : List ℕ) : Prop where
  held : vol.FileHolds others start beside faulty
    (vol.blockContent (vol.sectorsOf clusters) after.1.bytes) after clusters
  grows : content.size ≤ (vol.sectorsOf clusters).length
  same : ∀ at_ : ℤ, 0 ≤ at_ → at_ < content.size * vol.sectorSize →
    view vol.sectorSize (vol.sectorsOf clusters) after.1.bytes at_ = content.bytes at_

theorem FileHolds.extended (sound : vol.Sound) {more : List ℕ}
    (held : vol.FileHolds others start beside faulty content state clusters)
    (holding : vol.Holding others faulty (clusters ++ more) after)
    (same : vol.SameOutside state.1.bytes after.1.bytes) :
    vol.Extended others start beside faulty content after (clusters ++ more) := by
  have positive : 0 < vol.sectorSize := by
    have wide := sound.wide
    omega
  have length := @length_sectorsOf vol (clusters ++ more)
  refine ⟨⟨holding, held.start.trans (List.prefix_append _ _), length, fun _ _ _ => rfl,
    fun place outside beyond => ?_⟩, ?_, fun at_ natural below => ?_⟩
  · rw [same place outside, held.beside place outside]
    rintro ⟨sector, member, inside⟩
    refine beyond ⟨sector, ?_, inside⟩
    rw [sectorsOf_append]
    exact List.mem_append_left _ member
  · rw [held.size, length, List.length_append]
    exact Nat.mul_le_mul_right _ (Nat.le_add_right _ _)
  · have old : at_ < (vol.sectorsOf clusters).length * vol.sectorSize := by
      rwa [length_sectorsOf, ← held.size]
    rw [held.bytes at_ natural below, sectorsOf_append,
      Scattered.view_append positive _ natural old]
    refine Scattered.view_congr positive (fun place within => ?_) natural old
    exact same place (held.holding.linked.outsideTable sound within)

/-- A file that has not been extended holds what it did. -/
theorem Extended.unextended
    (extended : vol.Extended others start beside faulty content after clusters)
    (size : content.size = clusters.length * vol.sectorsPerCluster) :
    vol.FileHolds others start beside faulty content after clusters :=
  ⟨extended.held.holding, extended.held.start, size,
    fun at_ natural below => (extended.same at_ natural below).symm, extended.held.beside⟩

/-! ## Sectors and clusters -/

/-- How many clusters it takes for some sectors. -/
theorem ceil_le {sectors unit clusters : ℕ} (positive : 0 < unit) :
    (sectors + unit - 1) / unit ≤ clusters ↔ sectors ≤ clusters * unit := by
  rw [Nat.div_le_iff_le_mul_add_pred positive, Nat.mul_comm]
  omega

/-- How many clusters it takes up to some sectors. -/
theorem chainLength_le {i count unit clusters : ℕ} (positive : 0 < unit) (some : 0 < count) :
    (i - i % unit) / unit + (count + i % unit + unit - 1) / unit ≤ clusters ↔
      i + count ≤ clusters * unit := by
  have division := Nat.div_add_mod' i unit
  have whole : (i - i % unit) / unit = i / unit := by
    have front : i - i % unit = i / unit * unit := by omega
    rw [front, Nat.mul_div_cancel _ positive]
  rw [whole]
  constructor
  · intro enough
    have rest : (count + i % unit + unit - 1) / unit ≤ clusters - i / unit := by omega
    have fit := (ceil_le positive).mp rest
    have more : i / unit ≤ clusters := (Nat.le_add_right _ _).trans enough
    rw [Nat.sub_mul] at fit
    have behind := Nat.mul_le_mul_right unit more
    omega
  · intro enough
    have more : i / unit < clusters := by
      refine Nat.lt_of_mul_lt_mul_right (a := unit) ?_
      omega
    have rest : (count + i % unit + unit - 1) / unit ≤ clusters - i / unit := by
      refine (ceil_le positive).mpr ?_
      rw [Nat.sub_mul]
      omega
    omega

/-- **The groups of some sectors** are found if the file has these sectors, or can be extended. -/
theorem determineSectorGroups_ensures (sound : vol.Sound) {i count : ℕ} (alloc : Bool)
    (some : 0 < count)
    (held : vol.FileHolds others start beside faulty content state clusters) :
    (vol.determineSectorGroups i count alloc).Ensures state
      (fun result after => ∃ clusters', (alloc = false → clusters' = clusters) ∧
        vol.Extended others start beside faulty content after clusters' ∧
        (result.2 = true → i + count ≤ clusters'.length * vol.sectorsPerCluster ∧
          Covers (vol.sectorsOf clusters') i result.1 ∧ count ≤ totalSectors result.1) ∧
        (result.2 = false → alloc = false ∧ content.size < i + count))
      fun _ after => (faulty ∨ alloc = true ∧ content.size < i + count) ∧
        ∃ clusters', (alloc = false → clusters' = clusters) ∧
          vol.Extended others start beside faulty content after clusters' := by
  have positive := sound.clusters
  have enough {clusters : List ℕ} := @chainLength_le i count _ clusters.length positive some
  unfold determineSectorGroups
  refine Procedure.Ensures.bind ((provideClusters_ensures sound _ alloc held.holding).mono
    (fun _ _ came => came) ?_) ?_
  · rintro - after ⟨failed, more, none, holding, same⟩
    refine ⟨failed.imp_right fun ⟨takes, short⟩ => ⟨takes, ?_⟩, clusters ++ more,
      fun never => ?_, held.extended sound holding same⟩
    · rw [held.size]
      by_contra fits
      exact absurd (enough.mpr (Nat.le_of_not_lt fits)) (Nat.not_le_of_lt short)
    · rw [none never, List.append_nil]
  · rintro - ⟨disk, memory⟩ ⟨more, holding, same, none, reached⟩
    refine Procedure.ensures_bind.mpr (Procedure.ensures_look.mpr ?_)
    refine ⟨clusters ++ more, fun never => ?_, held.extended sound holding same, fun complete => ?_,
      fun incomplete => ?_⟩
    · rw [none never, List.append_nil]
    · have length := of_decide_eq_true complete
      have known := holding.knows.first.length_le
      rw [List.length_take, List.length_drop] at length
      dsimp only at length
      have one : 0 < (count + i % vol.sectorsPerCluster + vol.sectorsPerCluster - 1) /
          vol.sectorsPerCluster := Nat.div_pos (by omega) positive
      have whole : (i - i % vol.sectorsPerCluster) / vol.sectorsPerCluster +
          (count + i % vol.sectorsPerCluster + vol.sectorsPerCluster - 1) /
            vol.sectorsPerCluster ≤ memory.cache.length := by omega
      have segment (j c : ℕ)
          (there : ((memory.cache.drop
            ((i - i % vol.sectorsPerCluster) / vol.sectorsPerCluster)).take
            ((count + i % vol.sectorsPerCluster + vol.sectorsPerCluster - 1) /
              vol.sectorsPerCluster))[j]? = Option.some c) :
          (clusters ++ more)[(i - i % vol.sectorsPerCluster) / vol.sectorsPerCluster + j]? =
            Option.some c := by
        rw [List.getElem?_take] at there
        split at there
        · rw [List.getElem?_drop] at there
          have bound := (List.getElem?_eq_some_iff.mp there).1
          rw [holding.knows.getElem? bound, there]
        · cases there
      obtain ⟨covers, total⟩ := groupsOf_covers positive
        (fun c member => (holding.linked.usable c member).two) segment (Nat.mod_lt i positive)
      have place : (i - i % vol.sectorsPerCluster) / vol.sectorsPerCluster *
          vol.sectorsPerCluster + i % vol.sectorsPerCluster = i := by
        rw [Nat.div_mul_cancel (Nat.dvd_sub_mod i)]
        have part := Nat.mod_le i vol.sectorsPerCluster
        omega
      rw [place] at covers
      refine ⟨enough.mp (whole.trans known), covers, ?_⟩
      rw [total, List.length_take, List.length_drop, length]
      have reach := (ceil_le positive).mp (Nat.le_refl
        ((count + i % vol.sectorsPerCluster + vol.sectorsPerCluster - 1) /
          vol.sectorsPerCluster))
      omega
    · have length := of_decide_eq_false incomplete
      rw [List.length_take, List.length_drop] at length
      dsimp only at length
      have short : memory.cache.length < (i - i % vol.sectorsPerCluster) / vol.sectorsPerCluster +
          (count + i % vol.sectorsPerCluster + vol.sectorsPerCluster - 1) /
            vol.sectorsPerCluster := by omega
      obtain long | ⟨never, -, fewer⟩ := reached
      · exact absurd long (Nat.not_le_of_lt short)
      · refine ⟨never, ?_⟩
        rw [held.size]
        by_contra fits
        exact absurd (enough.mpr (Nat.le_of_not_lt fits)) (Nat.not_le_of_lt fewer)

/-! ## The chain -/

theorem readSectors_clusterChain (sound : vol.Sound) {i count : ℕ} (some : 0 < count)
    (held : vol.FileHolds others start beside faulty content state clusters) :
    ((clusterChain vol).readSectors i (count * vol.sectorSize)).Ensures state
      (fun d after => vol.FileHolds others start beside faulty content after clusters ∧
        (∀ dest, d = Option.some dest → dest.length = count * vol.sectorSize) ∧
        (content.size ≤ i → d = none) ∧
        (i + count ≤ content.size →
          d = Option.some (Extent.read content.bytes (i * vol.sectorSize)
            (count * vol.sectorSize))))
      fun _ after => faulty ∧
        vol.FileHolds others start beside faulty content after clusters := by
  have positive := sound.spans.positive
  unfold clusterChain
  dsimp only
  rw [Nat.mul_div_cancel _ positive]
  refine Procedure.Ensures.bind ((determineSectorGroups_ensures sound false some held).mono
    (fun _ _ came => came) ?_) ?_
  · rintro - after ⟨failed, clusters', same, extended⟩
    obtain rfl := same rfl
    exact ⟨failed.resolve_right fun taken => Bool.false_ne_true taken.1,
      extended.unextended held.size⟩
  · rintro ⟨groups, complete⟩ between ⟨clusters', same, extended, whole, short⟩
    obtain rfl := same rfl
    have kept := extended.unextended held.size
    cases complete with
    | false =>
        obtain ⟨-, beyond⟩ := short rfl
        refine ⟨kept, ?_, fun _ => rfl, fun within => absurd within (Nat.not_le_of_lt beyond)⟩
        intro dest none
        cases none
    | true =>
        obtain ⟨within, covers, total⟩ := whole rfl
        rw [← held.size] at within
        have present (sector : ℕ) (member : sector ∈ vol.sectorsOf clusters') :
            sector < vol.volume.numSectors :=
          (kept.holding.linked.sector_lt sound member).2
        have reads := @readGroups_ensures vol _ i _ between.1 positive present covers _
          (Nat.mul_le_mul_right _ total)
        refine Procedure.ensures_bind.mpr (ensures_onDisk.mpr (reads.mono ?_ ?_))
        · rintro dest disk ⟨rfl, same', unfaulted⟩
          have held' : vol.FileHolds others start beside faulty content (disk, between.2)
              clusters' := by
            refine ⟨kept.holding.same same' kept.holding.knows unfaulted, kept.start, kept.size,
              ?_, ?_⟩
            · rw [same']
              exact kept.bytes
            · rw [same']
              exact kept.beside
          refine ⟨held', ?_, fun beyond => ?_, fun _ => congrArg Option.some ?_⟩
          · rintro dest ⟨⟩
            exact Extent.length_read _ _ _
          · omega
          · rw [Nat.cast_mul]
            refine Extent.read_congr fun j inside => ?_
            refine (kept.bytes _ (by positivity) ?_).symm
            have reach := Nat.mul_le_mul_right vol.sectorSize within
            rw [Nat.add_mul] at reach
            exact_mod_cast (by omega : i * vol.sectorSize + j < content.size * vol.sectorSize)
        · rintro - disk ⟨-, faulted, same'⟩
          refine ⟨kept.holding.faulted faulted, ?_⟩
          refine ⟨kept.holding.same same' kept.holding.knows fun none => absurd none faulted,
            kept.start, kept.size, ?_, ?_⟩
          · rw [same']
            exact kept.bytes
          · rw [same']
            exact kept.beside

theorem writeSectors_clusterChain (sound : vol.Sound) {i count : ℕ} {data : Bytes}
    (some : 0 < count) (length : data.length = count * vol.sectorSize)
    (held : vol.FileHolds others start beside faulty content state clusters) :
    ((clusterChain vol).writeSectors i data).Ensures state
      (fun _ after => ∃ written clusters',
        vol.FileHolds others start beside faulty written after clusters' ∧
        content.Written vol.sectorSize written (i * vol.sectorSize) data)
      fun _ after => (faulty ∨ content.size < i + count) ∧ ∃ touched clusters',
        vol.FileHolds others start beside faulty touched after clusters' ∧
        content.Touched vol.sectorSize touched (i * vol.sectorSize) data := by
  have positive := sound.spans.positive
  unfold clusterChain
  dsimp only
  rw [length, Nat.mul_div_cancel _ positive]
  refine Procedure.Ensures.bind ((determineSectorGroups_ensures sound true some held).mono
    (fun _ _ came => came) ?_) ?_
  · rintro - after ⟨failed, clusters', -, extended⟩
    refine ⟨failed.imp_right And.right, _, clusters', extended.held, ?_⟩
    exact (Content.Touched.refl _ _ _).grown extended.grows extended.same
  · rintro ⟨groups, complete⟩ between ⟨clusters', -, extended, whole, short⟩
    cases complete with
    | false =>
        obtain ⟨absurd_, -⟩ := short rfl
        cases absurd_
    | true =>
        obtain ⟨within, covers, total⟩ := whole rfl
        have linked := extended.held.holding.linked
        have present (sector : ℕ) (member : sector ∈ vol.sectorsOf clusters') :
            sector < vol.volume.numSectors := (linked.sector_lt sound member).2
        have apart : (vol.sectorsOf clusters').Nodup :=
          nodup_sectorsOf extended.held.holding.apart fun c member => (linked.usable c member).two
        have writes := @writeGroups_ensures vol _ i _ between.1 positive sound.spans.writable apart
          present (by rw [length_sectorsOf]; omega) covers data
          (by rw [length]; exact Nat.mul_le_mul_right _ total)
          (by rw [length]; exact Nat.dvd_mul_left _ _)
        rw [Nat.cast_mul] at writes
        have holds {disk : Disk}
            (same : ∀ place, ¬Within vol.sectorSize (vol.sectorsOf clusters') place →
              disk.bytes place = between.1.bytes place)
            (unfaulted : between.1.faults = [] → disk.faults = []) :
            vol.FileHolds others start beside faulty
              (vol.blockContent (vol.sectorsOf clusters') disk.bytes) (disk, between.2)
              clusters' :=
          ⟨extended.held.holding.written sound same rfl unfaulted, extended.held.start,
            length_sectorsOf _, fun _ _ _ => rfl, fun place outside beyond =>
              (same place beyond).trans (extended.held.beside place outside beyond)⟩
        refine ensures_onDisk.mpr (writes.mono ?_ ?_)
        · rintro - disk ⟨written, same, unfaulted⟩
          exact ⟨_, clusters', holds same unfaulted, written.grown extended.grows extended.same⟩
        · rintro - disk ⟨-, faulted, touched, same⟩
          exact ⟨.inl (extended.held.holding.faulted faulted), _, clusters',
            holds same fun none => absurd none faulted,
            touched.grown extended.grows extended.same⟩

/-- **The clusters of a file hold its content**: what is written beyond them may find no free
cluster (`grows`), and nothing else can fail but the device. -/
theorem clusterChain_keeps (sound : vol.Sound) (others : List (List ℕ)) (start : List ℕ)
    (beside : ℤ → UInt8) (faulty grows : Prop) :
    (clusterChain vol).Keeps
      (fun content state => ∃ clusters,
        vol.FileHolds others start beside faulty content state clusters)
      (fun content last => last ≤ content.size ∨ grows) (faulty ∨ grows) where
  positive := sound.spans.positive
  fits_le sooner fits := fits.imp_left sooner.trans
  fits_grows more fits := fits.imp_left more.trans'
  fits_within := .inl (Nat.le_refl _)
  read {content state} i count some held := by
    obtain ⟨clusters, held⟩ := held
    refine (readSectors_clusterChain sound some held).mono ?_ ?_
    · rintro d after ⟨held', came⟩
      exact ⟨⟨clusters, held'⟩, came⟩
    · rintro - after ⟨failed, held'⟩
      exact ⟨.inl failed, clusters, held'⟩
  write {content state} i count data some length held fits := by
    obtain ⟨clusters, held⟩ := held
    refine (writeSectors_clusterChain sound some length held).mono ?_ ?_
    · rintro - after ⟨written, clusters', held', changed⟩
      exact ⟨written, ⟨clusters', held'⟩, changed⟩
    · rintro - after ⟨failed, touched, clusters', held', changed⟩
      refine ⟨?_, touched, ⟨clusters', held'⟩, changed⟩
      exact failed.imp_right fun beyond => fits.resolve_left (Nat.not_le_of_lt beyond)

end Vol

end JsOS.Core.Fs.Fat
