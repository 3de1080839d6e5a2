import JsOS.Core.Fs.Fat.ClusterChains

/-! # Linked clusters

The clusters of a file are linked in the table: each names the next, and the last ends the chain
(`Vol.Linked`). What a chain remembers are the first of them, or all (`Memory.Knows`). Looking for
clusters changes nothing; taking free ones appends them, and leaves the data and the links of all
other files alone, also if the device fails in between.
-/

namespace JsOS.Core.Fs.Fat

namespace Vol

variable (vol : Vol)

/-- A cluster that a file may have. -/
structure Usable (c : ℕ) : Prop where
  two : 2 ≤ c
  below : (c : ℤ) < vol.countofClusters
  whole : vol.Whole c

/-- How the entry of a cluster is called that another one follows, or none. -/
def statusBefore : Option ℕ → Status
  | none => .eof
  | some c => .next c

/-- **The clusters are linked**: each names the next, and the last ends the chain. -/
structure Linked (contents : ℤ → UInt8) (clusters : List ℕ) : Prop where
  some : clusters ≠ []
  usable : ∀ c ∈ clusters, vol.Usable c
  status : ∀ i c, clusters[i]? = Option.some c →
    vol.fatType.statusOf (vol.entry contents c) = statusBefore clusters[i + 1]?

variable {vol} {contents before after : ℤ → UInt8} {clusters : List ℕ} {c n : ℕ}

theorem statusOf_eof (fatType : FatType) : fatType.statusOf fatType.eof = .eof := by
  cases fatType <;> rfl

/-- The number of a cluster that a file may have is read back. -/
theorem Usable.statusOf (sound : vol.Sound) (usable : vol.Usable c) :
    vol.fatType.statusOf c = .next c := by
  have names := sound.names
  have two := usable.two
  have below := usable.below
  unfold FatType.statusOf
  rw [if_neg (by omega), if_neg (by omega), if_neg (by omega), if_neg (by omega),
    if_neg (by omega)]

/-- The clusters of a file are not free. -/
theorem Linked.taken (linked : vol.Linked contents clusters) (member : c ∈ clusters) :
    vol.entry contents c ≠ 0 := by
  intro zero
  obtain ⟨i, there⟩ := List.mem_iff_getElem?.mp member
  have status := linked.status i c there
  rw [statusOf_eq_free.mpr zero] at status
  cases next : clusters[i + 1]? with
  | none =>
      rw [next] at status
      cases status
  | some d =>
      rw [next] at status
      cases status

/-- Clusters are linked as before if their entries are. -/
theorem Linked.congr (linked : vol.Linked before clusters)
    (same : ∀ c ∈ clusters, vol.entry after c = vol.entry before c) :
    vol.Linked after clusters := by
  refine ⟨linked.some, linked.usable, fun i c there => ?_⟩
  rw [same c (List.mem_of_getElem? there)]
  exact linked.status i c there

/-- A store to the entry of a cluster leaves the files alone that do not have it. -/
theorem Linked.stores {status : ℕ} (linked : vol.Linked before clusters)
    (stores : vol.Stores before after n status) (foreign : n ∉ clusters) :
    vol.Linked after clusters :=
  linked.congr fun _ member => stores.others _ fun same => foreign (same ▸ member)

/-- The last of some clusters. -/
theorem getElem?_getLastD (some : clusters ≠ []) :
    clusters[clusters.length - 1]? = Option.some (clusters.getLastD 0) := by
  rw [← List.getLast?_eq_getElem?, List.getLastD_eq_getLast?, List.getLast?_eq_some_getLast some]
  rfl

/-- **A free cluster is taken**: it ends the chain, and the last one names it. -/
theorem Linked.append {between : ℤ → UInt8} (sound : vol.Sound)
    (linked : vol.Linked before clusters) (apart : clusters.Nodup) (usable : vol.Usable n)
    (foreign : n ∉ clusters) (marked : vol.Stores before between n vol.fatType.eof)
    (named : vol.Stores between after (clusters.getLastD 0) n) :
    vol.Linked after (clusters ++ [n]) := by
  have still := linked.stores marked foreign
  have last := getElem?_getLastD linked.some
  have nonempty := List.length_pos_iff.mpr linked.some
  refine ⟨List.append_ne_nil_of_left_ne_nil linked.some _, fun c member => ?_, fun i c there => ?_⟩
  · obtain old | new := List.mem_append.mp member
    · exact linked.usable c old
    · rw [List.mem_singleton.mp new]
      exact usable
  · have bound := (List.getElem?_eq_some_iff.mp there).1
    rw [List.length_append, List.length_singleton] at bound
    obtain inner | end_ | new : i + 1 < clusters.length ∨ i = clusters.length - 1 ∨
        i = clusters.length := by omega
    · rw [List.getElem?_append_left (by omega)] at there
      have other : c ≠ clusters.getLastD 0 := by
        rintro rfl
        have index := (List.getElem?_inj (by omega) apart).mp (there.trans last.symm)
        omega
      rw [List.getElem?_append_left inner, named.others c other]
      exact still.status i c there
    · rw [List.getElem?_append_left (by omega), end_] at there
      obtain rfl := Option.some.inj (last.symm.trans there)
      have next : (clusters ++ [n])[i + 1]? = Option.some n := by
        have index : i + 1 = clusters.length := by omega
        rw [index, List.getElem?_append_right (Nat.le_refl _), Nat.sub_self]
        rfl
      rw [next, named.entry]
      exact usable.statusOf sound
    · rw [new, List.getElem?_append_right (Nat.le_refl _), Nat.sub_self] at there
      obtain rfl : n = c := Option.some.inj there
      have other : n ≠ clusters.getLastD 0 := by
        rintro rfl
        exact foreign (List.mem_of_getElem? last)
      have none : (clusters ++ [n])[i + 1]? = Option.none := by
        refine List.getElem?_eq_none ?_
        rw [List.length_append, List.length_singleton, new]
      rw [none, named.others n other, marked.entry]
      exact statusOf_eof _

end Vol

/-! ## What a chain remembers -/

/-- What a chain remembers are the first of its clusters, or all. -/
structure Memory.Knows (memory : Memory) (clusters : List ℕ) : Prop where
  some : memory.cache ≠ []
  first : memory.cache <+: clusters
  complete : memory.complete = true → memory.cache = clusters

namespace Memory.Knows

variable {memory : Memory} {clusters : List ℕ}

/-- The entry behind the last cluster that is remembered. -/
theorem getElem? (knows : memory.Knows clusters) {i : ℕ} (inside : i < memory.cache.length) :
    clusters[i]? = memory.cache[i]? := by
  obtain ⟨rest, rfl⟩ := knows.first
  exact List.getElem?_append_left inside

/-- One cluster more is remembered. -/
theorem push (knows : memory.Knows clusters) {c : ℕ}
    (next : clusters[memory.cache.length]? = Option.some c) (open_ : memory.complete = false) :
    (memory.push c).Knows clusters := by
  obtain ⟨rest, rfl⟩ := knows.first
  rw [List.getElem?_append_right (Nat.le_refl _), Nat.sub_self] at next
  cases rest with
  | nil => cases next
  | cons d rest =>
      obtain rfl : d = c := Option.some.inj next
      refine ⟨List.append_ne_nil_of_left_ne_nil knows.some _, ⟨rest, List.append_assoc _ _ _⟩,
        fun complete => ?_⟩
      rw [show (memory.push d).complete = memory.complete from rfl, open_] at complete
      cases complete

/-- The end is remembered. -/
theorem pushEof (knows : memory.Knows clusters)
    (none : clusters[memory.cache.length]? = Option.none) : memory.pushEof.Knows clusters := by
  obtain ⟨rest, rfl⟩ := knows.first
  rw [List.getElem?_append_right (Nat.le_refl _), Nat.sub_self] at none
  cases rest with
  | nil => exact ⟨knows.some, ⟨[], rfl⟩, fun _ => (List.append_nil _).symm⟩
  | cons d rest => cases none

/-- A chain may get longer than what is remembered, unless that is all. -/
theorem append (knows : memory.Knows clusters) (open_ : memory.complete = false) (more : List ℕ) :
    memory.Knows (clusters ++ more) := by
  refine ⟨knows.some, knows.first.trans (List.prefix_append _ _), fun complete => ?_⟩
  rw [open_] at complete
  cases complete

end Memory.Knows

/-! ## The state of a chain -/

namespace Vol

variable (vol : Vol)

/-- A place of the device that does not belong to the table. -/
def OutsideTable (at_ : ℤ) : Prop :=
  ¬(vol.resvdSecCnt * vol.sectorSize ≤ at_ ∧
    at_ < (vol.resvdSecCnt + vol.fatSz) * vol.sectorSize)

/-- Nothing has changed outside the table. -/
def SameOutside (before after : ℤ → UInt8) : Prop :=
  ∀ at_, vol.OutsideTable at_ → after at_ = before at_

/-- **The state of a chain**: its clusters are linked and those of the other files too, no cluster
belongs to two, and the chain knows its own. -/
structure Holding (others : List (List ℕ)) (faulty : Prop) (clusters : List ℕ)
    (state : ChainState) : Prop where
  linked : vol.Linked state.1.bytes clusters
  apart : clusters.Nodup
  knows : state.2.Knows clusters
  others : ∀ other ∈ others, vol.Linked state.1.bytes other ∧ ∀ c ∈ other, c ∉ clusters
  faults : ¬faulty → state.1.faults = []
  steady : vol.Steady state.1

variable {vol} {before between after : ℤ → UInt8} {clusters : List ℕ} {n status : ℕ}
  {others : List (List ℕ)} {faulty : Prop} {state : ChainState}

theorem SameOutside.trans (first : vol.SameOutside before between)
    (second : vol.SameOutside between after) : vol.SameOutside before after :=
  fun at_ outside => (second at_ outside).trans (first at_ outside)

/-- A store changes nothing outside the table. -/
theorem Stores.sameOutside (sound : vol.Sound) (below : (n : ℤ) < vol.countofClusters)
    (stores : vol.Stores before after n status) : vol.SameOutside before after := by
  refine fun at_ outside => stores.beside at_ fun inside => outside ?_
  have covered := sound.covers n below
  have upper : ((vol.resvdSecCnt + vol.fatSz : ℕ) * vol.sectorSize : ℤ) =
      ((vol.resvdSecCnt * vol.sectorSize + vol.fatSz * vol.sectorSize : ℕ) : ℤ) := by
    push_cast
    ring
  push_cast at upper
  rw [upper]
  unfold entryPlace at inside
  push_cast at inside ⊢
  constructor
  · omega
  · have covered : (vol.fatOffset n : ℤ) + vol.fatType.entrySize ≤ vol.fatSz * vol.sectorSize := by
      exact_mod_cast covered
    omega

/-- The clusters that a chain has are not free, nor are those of the other files. -/
theorem Holding.free (holding : vol.Holding others faulty clusters state)
    (zero : vol.entry state.1.bytes n = 0) : n ∉ clusters ∧ ∀ other ∈ others, n ∉ other :=
  ⟨fun member => holding.linked.taken member zero,
    fun other file member => (holding.others other file).1.taken member zero⟩

/-- A state with the same table. -/
theorem Holding.same {after : ChainState} (holding : vol.Holding others faulty clusters state)
    (same : after.1.bytes = state.1.bytes) (knows : after.2.Knows clusters)
    (unfaulted : state.1.faults = [] → after.1.faults = []) :
    vol.Holding others faulty clusters after := by
  refine ⟨?_, holding.apart, knows, ?_, fun never => unfaulted (holding.faults never),
    fun twelve => unfaulted (holding.steady twelve)⟩
  · rw [same]
    exact holding.linked
  · rw [same]
    exact holding.others

/-- A device that has failed. -/
theorem Holding.faulted (holding : vol.Holding others faulty clusters state)
    (faulted : state.1.faults ≠ []) : faulty :=
  Classical.byContradiction fun never => faulted (holding.faults never)

/-- A cluster that nobody has is marked. -/
theorem Holding.marked {after : ChainState} (holding : vol.Holding others faulty clusters state)
    (zero : vol.entry state.1.bytes n = 0)
    (stores : vol.Stores state.1.bytes after.1.bytes n status) (knows : after.2.Knows clusters)
    (unfaulted : state.1.faults = [] → after.1.faults = []) :
    vol.Holding others faulty clusters after := by
  obtain ⟨own, foreign⟩ := holding.free zero
  refine ⟨holding.linked.stores stores own, holding.apart, knows, fun other file => ?_,
    fun never => unfaulted (holding.faults never), fun twelve => unfaulted (holding.steady twelve)⟩
  obtain ⟨linked, apart⟩ := holding.others other file
  exact ⟨linked.stores stores (foreign other file), apart⟩

/-! ## Looking for clusters -/

/-- **Looking for clusters changes nothing** but what is remembered. -/
theorem extendCache_ensures (sound : vol.Sound) (left : ℕ)
    (holding : vol.Holding others faulty clusters state) :
    (vol.extendCache left).Ensures state
      (fun _ after => vol.Holding others faulty clusters after ∧
        after.1.bytes = state.1.bytes ∧
        (after.2.complete = true ∨ state.2.cache.length + left ≤ after.2.cache.length))
      fun _ after => faulty ∧ vol.Holding others faulty clusters after ∧
        after.1.bytes = state.1.bytes := by
  induction left generalizing state with
  | zero => exact ⟨holding, rfl, .inr (Nat.le_refl _)⟩
  | succ left ih =>
      unfold extendCache
      refine Procedure.ensures_bind.mpr (Procedure.ensures_look.mpr ?_)
      by_cases complete : state.2.complete = true
      · rw [if_pos complete]
        exact ⟨holding, rfl, .inl complete⟩
      · rw [if_neg complete]
        have open_ : state.2.complete = false := Bool.eq_false_of_not_eq_true complete
        have nonempty := List.length_pos_iff.mpr holding.knows.some
        have last : clusters[state.2.cache.length - 1]? = some (state.2.cache.getLastD 0) := by
          rw [holding.knows.getElem? (by omega), getElem?_getLastD holding.knows.some]
        have usable := holding.linked.usable _ (List.mem_of_getElem? last)
        have status := holding.linked.status _ _ last
        have next : state.2.cache.length - 1 + 1 = state.2.cache.length := by omega
        rw [next] at status
        have fetches := @fetchFromFAT_ensures vol _ state.1 sound usable.below
        rw [status] at fetches
        refine Procedure.ensures_bind.mpr (ensures_onDisk.mpr (fetches.mono ?_ ?_))
        · rintro _ disk ⟨-, rfl, same, unfaulted⟩
          cases entry : clusters[state.2.cache.length]? with
          | none =>
              exact ⟨holding.same same (holding.knows.pushEof entry) unfaulted, same, .inl rfl⟩
          | some c =>
              have known := holding.knows.push entry open_
              have further : vol.Holding others faulty clusters (disk, state.2.push c) :=
                holding.same same known unfaulted
              have length : (state.2.push c).cache.length = state.2.cache.length + 1 :=
                List.length_append
              refine (ih further).mono ?_ ?_
              · rintro - after ⟨holding', same', enough⟩
                refine ⟨holding', same'.trans same, enough.imp_right fun enough => ?_⟩
                change (state.2.push c).cache.length + left ≤ _ at enough
                omega
              · rintro - after ⟨failed, holding', same'⟩
                exact ⟨failed, holding', same'.trans same⟩
        · rintro - disk ⟨failed, same, unfaulted⟩
          have faulted := failed.resolve_left (not_not_intro usable.whole)
          exact ⟨holding.faulted faulted, holding.same same holding.knows unfaulted, same⟩

/-- **How far a chain goes is known** when clusters have been looked for. -/
theorem extendCacheToInclude_ensures (sound : vol.Sound) (chainLength : ℕ)
    (holding : vol.Holding others faulty clusters state) :
    (vol.extendCacheToInclude (chainLength - 1 : ℤ)).Ensures state
      (fun eof after => vol.Holding others faulty clusters after ∧
        after.1.bytes = state.1.bytes ∧
        (eof = true → after.2.complete = true ∧ clusters.length < chainLength) ∧
        (eof = false → chainLength ≤ after.2.cache.length))
      fun _ after => faulty ∧ vol.Holding others faulty clusters after ∧
        after.1.bytes = state.1.bytes := by
  unfold extendCacheToInclude
  refine Procedure.ensures_bind.mpr (Procedure.ensures_look.mpr ?_)
  refine Procedure.Ensures.bind (extendCache_ensures sound _ holding) ?_
  rintro - after ⟨holding', same, enough⟩
  refine Procedure.ensures_bind.mpr (Procedure.ensures_look.mpr ?_)
  refine ⟨holding', same, fun eof => ?_, fun more => ?_⟩
  · have beyond := of_decide_eq_true eof
    have complete : after.2.complete = true := by
      refine enough.resolve_right fun enough => ?_
      omega
    rw [← holding'.knows.complete complete]
    exact ⟨complete, by omega⟩
  · have within := of_decide_eq_false more
    omega

/-! ## Taking clusters -/

/-- **Free clusters are appended**, as many as are needed or until the device or the clusters give
out. -/
theorem addCluster_ensures (sound : vol.Sound) (clustersNeeded : ℕ) {disk : Disk}
    (holding : vol.Holding others faulty clusters (disk, ⟨clusters, false⟩)) :
    (vol.addCluster clustersNeeded (clusters.getLastD 0)).Ensures (disk, ⟨clusters, false⟩)
      (fun _ after => ∃ more : List ℕ, more.length = clustersNeeded ∧
        vol.Holding others faulty (clusters ++ more) after ∧
        after.2.cache = clusters ++ more ∧ vol.SameOutside disk.bytes after.1.bytes)
      fun _ after => ∃ more, vol.Holding others faulty (clusters ++ more) after ∧
        vol.SameOutside disk.bytes after.1.bytes := by
  induction clustersNeeded generalizing clusters disk with
  | zero =>
      refine ⟨[], rfl, ?_, (List.append_nil _).symm, fun _ _ => rfl⟩
      rw [List.append_nil]
      exact holding.same rfl ⟨holding.knows.some, List.prefix_refl _, fun _ => rfl⟩ fun none => none
  | succ clustersNeeded ih =>
      unfold addCluster
      have last := List.mem_of_getElem? (getElem?_getLastD holding.linked.some)
      have usable := holding.linked.usable _ last
      have allocates := allocateInFAT_ensures sound holding.steady (clusters.getLastD 0)
      refine Procedure.ensures_bind.mpr (ensures_onDisk.mpr (allocates.mono ?_ ?_))
      · rintro n between ⟨low, below, whole, zero, -, marked, unfaulted⟩
        have fresh : vol.Usable n := ⟨usable.two.trans low, below, whole⟩
        obtain ⟨own, foreign⟩ := holding.free zero
        have still := @Holding.marked vol clusters n _ others faulty _ (between, ⟨clusters, false⟩)
          holding zero marked holding.knows unfaulted
        have small : n < vol.fatType.fatPrefix + 0x100 := by
          have names := sound.names
          omega
        have named := storeToFAT_ensures sound still.steady usable.below small fun _ => usable.whole
        have outside := marked.sameOutside sound below
        have appended {after : Disk} {memory : Memory} (knows : memory.Knows (clusters ++ [n]))
            (named : vol.Stores between.bytes after.bytes (clusters.getLastD 0) n)
            (unfaulted : between.faults = [] → after.faults = []) :
            vol.Holding others faulty (clusters ++ [n]) (after, memory) := by
          refine ⟨holding.linked.append sound holding.apart fresh own marked named, ?_, knows, ?_,
            fun never => unfaulted (still.faults never),
            fun twelve => unfaulted (still.steady twelve)⟩
          · rw [List.nodup_append]
            refine ⟨holding.apart, List.nodup_singleton n, ?_⟩
            rintro c member _ new rfl
            exact own (List.mem_singleton.mp new ▸ member)
          · intro other file
            obtain ⟨linked, apart⟩ := still.others other file
            have beside : clusters.getLastD 0 ∉ other := fun member => apart _ member last
            refine ⟨linked.stores named beside, fun c member both => ?_⟩
            obtain old | new := List.mem_append.mp both
            · exact apart c member old
            · exact foreign other file (List.mem_singleton.mp new ▸ member)
        refine Procedure.ensures_bind.mpr (ensures_onDisk.mpr (named.mono ?_ ?_))
        · rintro - after ⟨-, named, unfaulted'⟩
          have holding' : vol.Holding others faulty (clusters ++ [n])
              (after, ⟨clusters ++ [n], false⟩) :=
            appended ⟨List.append_ne_nil_of_right_ne_nil _ (List.cons_ne_nil _ _),
              List.prefix_refl _, fun _ => rfl⟩ named unfaulted'
          have last' : (clusters ++ [n]).getLastD 0 = n := List.getLastD_concat
          have further := ih holding'
          rw [last'] at further
          have outside' := outside.trans (named.sameOutside sound usable.below)
          refine further.mono ?_ ?_
          · rintro - last ⟨more, length, holding'', cache, same⟩
            rw [List.append_assoc] at holding'' cache
            exact ⟨n :: more, congrArg Nat.succ length, holding'', cache, outside'.trans same⟩
          · rintro - last ⟨more, holding'', same⟩
            rw [List.append_assoc] at holding''
            exact ⟨n :: more, holding'', outside'.trans same⟩
        · rintro - after ⟨-, same | named, unfaulted'⟩
          · refine ⟨[], ?_, fun at_ place => ?_⟩
            · rw [List.append_nil]
              exact still.same same still.knows unfaulted'
            · rw [same]
              exact outside at_ place
          · have knows := holding.knows.append rfl [n]
            exact ⟨[n], appended knows named unfaulted',
              outside.trans (named.sameOutside sound usable.below)⟩
      · rintro - between ⟨-, same | ⟨n, low, below, zero, marked⟩, unfaulted⟩
        · refine ⟨[], ?_, fun at_ _ => congrFun same at_⟩
          rw [List.append_nil]
          exact holding.same same holding.knows unfaulted
        · refine ⟨[], ?_, marked.sameOutside sound below⟩
          rw [List.append_nil]
          exact holding.marked zero marked holding.knows unfaulted

/-- **The clusters are provided** that a write needs; a read takes none. -/
theorem provideClusters_ensures (sound : vol.Sound) (chainLength : ℕ) (alloc : Bool)
    (holding : vol.Holding others faulty clusters state) :
    (vol.provideClusters chainLength alloc).Ensures state
      (fun _ after => ∃ more, vol.Holding others faulty (clusters ++ more) after ∧
        vol.SameOutside state.1.bytes after.1.bytes ∧ (alloc = false → more = []) ∧
        (chainLength ≤ after.2.cache.length ∨
          alloc = false ∧ after.2.cache = clusters ∧ clusters.length < chainLength))
      fun _ after => (faulty ∨ alloc = true ∧ clusters.length < chainLength) ∧
        ∃ more, (alloc = false → more = []) ∧
          vol.Holding others faulty (clusters ++ more) after ∧
          vol.SameOutside state.1.bytes after.1.bytes := by
  unfold provideClusters
  refine Procedure.Ensures.bind ((extendCacheToInclude_ensures sound chainLength holding).mono
    (fun _ _ came => came) ?_) ?_
  · rintro - after ⟨failed, holding', same⟩
    refine ⟨.inl failed, [], fun _ => rfl, ?_, fun at_ _ => congrFun same at_⟩
    rwa [List.append_nil]
  · rintro eof ⟨disk, memory⟩ ⟨holding', same, whenEof, otherwise⟩
    have outside : vol.SameOutside state.1.bytes disk.bytes := fun at_ _ => congrFun same at_
    cases eof with
    | false =>
        refine ⟨[], ?_, outside, fun _ => rfl, .inl (otherwise rfl)⟩
        rwa [List.append_nil]
    | true =>
        obtain ⟨complete, short⟩ := whenEof rfl
        have cache : memory.cache = clusters := holding'.knows.complete complete
        cases alloc with
        | false =>
            refine ⟨[], ?_, outside, fun _ => rfl, .inr ⟨rfl, cache, short⟩⟩
            rwa [List.append_nil]
        | true =>
            change Procedure.Ensures (vol.expandChainToLength chainLength) _ _ _
            unfold expandChainToLength
            refine Procedure.ensures_bind.mpr (Procedure.ensures_look.mpr ?_)
            dsimp only
            rw [if_pos complete, cache]
            refine Procedure.ensures_bind.mpr (Procedure.ensures_change.mpr ?_)
            have popped : memory.popEof = ⟨clusters, false⟩ := by
              unfold Memory.popEof
              rw [cache]
            dsimp only
            rw [popped]
            have start : vol.Holding others faulty clusters (disk, ⟨clusters, false⟩) := by
              refine holding'.same rfl ⟨?_, List.prefix_refl _, fun _ => rfl⟩ fun none => none
              exact holding.linked.some
            refine (addCluster_ensures sound _ start).mono ?_ ?_
            · rintro - after ⟨more, length, holding'', all, same'⟩
              refine ⟨more, holding'', outside.trans same', fun absurd_ => ?_, .inl ?_⟩
              · cases absurd_
              · rw [all, List.length_append, length]
                omega
            · rintro - after ⟨more, holding'', same'⟩
              refine ⟨.inr ⟨rfl, short⟩, more, fun absurd_ => ?_, holding'', outside.trans same'⟩
              cases absurd_

end Vol

end JsOS.Core.Fs.Fat
