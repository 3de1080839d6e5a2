import JsOS.Core.Fs.Fat.ClusterContents
import JsOS.Library.Refinement

/-! # Files on a volume

Each file of a volume has one chain at a time. The requests of the file system to the chains are
reads and writes at any position, the start of a new chain for a file that is opened again, and the
start of a file with a free cluster. Whatever the requests and however the device fails, the files
are contents of their own (`files_account`): a request changes no other file, a write that is done
has written its data, and one that has failed leaves of each byte the old or the new value. So what
is written is read back, until something else is written in its place (`written_read_back`).
-/

namespace JsOS.Core.Fs.Fat

open Framing (Bytes)
open Scattered (view Within)

/-! ## Requests -/

/-- A volume with the chain of each of its files. -/
structure Files where
  disk : Disk
  chains : List Memory

/-- What is asked of the chains. -/
inductive Request where
  /-- `chain.readFromPosition`, into a buffer -/
  | read (file off : ℕ) (buffer : Bytes)
  /-- `chain.writeToPosition` -/
  | write (file off : ℕ) (data : Bytes)
  /-- `vol.chainForCluster`, with the first cluster of a file -/
  | reopen (file : ℕ)
  /-- `vol.allocateInFAT` and `vol.chainForCluster`, for a file in a directory that is a file or
  has its place before the data -/
  | create (directory : Option ℕ)
  deriving DecidableEq, Repr

/-- How a request ends. -/
inductive Answer where
  | read (result : Except Failure (ℤ × Bytes))
  | wrote (result : Except Failure Unit)
  | opened
  | created (result : Except Failure ℕ)
  /-- There is no such file. -/
  | absent

namespace Files

variable (vol : Vol)

/-- A call of the chain of a file. -/
def onChain {α : Type} (files : Files) (file : ℕ) (memory : Memory) (io : ChainIo α) :
    Files × Except Failure α :=
  let (result, disk, memory) := io (files.disk, memory)
  (⟨disk, files.chains.set file memory⟩, result)

/-- What a call of a chain comes to is so of how it ends and of what it leaves. -/
theorem exists_onChain {α : Type} {files : Files} {memory : Memory} {io : ChainIo α}
    {done : α → ChainState → Prop} {failed : Failure → ChainState → Prop} (file : ℕ)
    (ensures : io.Ensures (files.disk, memory) done failed) :
    ∃ disk memory' result,
      files.onChain file memory io = (⟨disk, files.chains.set file memory'⟩, result) ∧
        (∀ value, result = .ok value → done value (disk, memory')) ∧
        ∀ failure, result = .error failure → failed failure (disk, memory') := by
  unfold onChain Procedure.Ensures at *
  generalize io (files.disk, memory) = reached at ensures ⊢
  obtain ⟨result, disk, memory'⟩ := reached
  refine ⟨disk, memory', result, rfl, ?_, ?_⟩
  · rintro value rfl
    exact ensures
  · rintro failure rfl
    exact ensures

/-- `firstCluster`. -/
def firstCluster (memory : Memory) : ℕ := memory.cache.headD 0

/-- `dirChain.firstCluster || 2`. -/
def hint (files : Files) (directory : Option ℕ) : ℕ :=
  match directory.bind (files.chains[·]?) with
  | some memory => firstCluster memory
  | none => 2

/-- A request is answered. -/
def step (files : Files) : Request → Files × Answer
  | .read file off buffer =>
      match files.chains[file]? with
      | none => (files, .absent)
      | some memory =>
          let (files, result) := files.onChain file memory
            ((clusterChain vol).readFromPosition (posFromOffset vol.sectorSize off) buffer)
          (files, .read result)
  | .write file off data =>
      match files.chains[file]? with
      | none => (files, .absent)
      | some memory =>
          let (files, result) := files.onChain file memory
            ((clusterChain vol).writeToPosition (posFromOffset vol.sectorSize off) data)
          (files, .wrote result)
  | .reopen file =>
      match files.chains[file]? with
      | none => (files, .absent)
      | some memory =>
          (⟨files.disk, files.chains.set file (Memory.ofFirst (firstCluster memory))⟩, .opened)
  | .create directory =>
      match vol.allocateInFAT (files.hint directory) files.disk with
      | (.ok clusterNum, disk) =>
          (⟨disk, files.chains ++ [Memory.ofFirst clusterNum]⟩, .created (.ok clusterNum))
      | (.error failure, disk) => (⟨disk, files.chains⟩, .created (.error failure))

end Files

/-! ## What the requests mean -/

/-- **What an answer says** about the contents of the files before and after it. -/
def Accounts (sectorSize : ℕ) (faulty : Prop) (before : List Content) :
    Request → Answer → List Content → Prop
  | .read file off buffer, .read result, after => after = before ∧ ∃ content,
      before[file]? = some content ∧
        (Chain.Undivided sectorSize (off % sectorSize) buffer.length →
          off + buffer.length ≤ content.size * sectorSize →
            result = .ok ((buffer.length : ℤ), Extent.read content.bytes off buffer.length) ∨
              faulty ∧ ∃ failure, result = .error failure)
  | .write file off data, .wrote result, after => ∃ content content',
      before[file]? = some content ∧ after = before.set file content' ∧
        match result with
        | .ok () => content.Written sectorSize content' off data
        | .error _ => content.Touched sectorSize content' off data ∧
            (off < content.size * sectorSize → off + data.length ≤ content.size * sectorSize →
              faulty)
  | .reopen file, .opened, after => after = before ∧ file < before.length
  | .create _, .created (.ok _), after => ∃ content, after = before ++ [content]
  | .create _, .created (.error _), after => after = before
  | .read file _ _, .absent, after => after = before ∧ before.length ≤ file
  | .write file _ _, .absent, after => after = before ∧ before.length ≤ file
  | .reopen file, .absent, after => after = before ∧ before.length ≤ file
  | _, _, _ => False

/-- **What the answers of a run say** about the contents of the files before and after it. -/
def AccountsAll (sectorSize : ℕ) (faulty : Prop) :
    List Content → List Request → List Answer → List Content → Prop
  | before, [], [], after => after = before
  | before, request :: requests, answer :: answers, after => ∃ between,
      Accounts sectorSize faulty before request answer between ∧
        AccountsAll sectorSize faulty between requests answers after
  | _, _, _, _ => False

/-! ## The files are kept -/

/-- **The files of a volume hold their contents**: no cluster belongs to two, and the links of each
file lead through its clusters. -/
structure Files.Keep (vol : Vol) (faulty : Prop) (files : Files) (contents : List Content)
    (clusters : List (List ℕ)) : Prop where
  chains : files.chains.length = clusters.length
  known : contents.length = clusters.length
  file : ∀ file memory content own, files.chains[file]? = some memory →
    contents[file]? = some content → clusters[file]? = some own →
      vol.FileHolds (clusters.eraseIdx file) own files.disk.bytes faulty content
        (files.disk, memory) own
  faults : ¬faulty → files.disk.faults = []
  steady : vol.Steady files.disk

/-- A volume on which no file is known yet. -/
theorem Files.keep_nil {vol : Vol} {faulty : Prop} {disk : Disk}
    (faults : ¬faulty → disk.faults = []) (steady : vol.Steady disk) :
    Files.Keep vol faulty ⟨disk, []⟩ [] [] := by
  refine ⟨rfl, rfl, fun file memory content own absent => ?_, faults, steady⟩
  simp at absent

namespace Files.Keep

variable {vol : Vol} {faulty : Prop} {files : Files} {contents : List Content}
  {clusters : List (List ℕ)}

/-- **One file changes and the others stay**. -/
theorem set (sound : vol.Sound) (keep : files.Keep vol faulty contents clusters) {file : ℕ}
    {disk : Disk} {memory : Memory} {content : Content} {old own : List ℕ}
    (there : clusters[file]? = some old)
    (held : vol.FileHolds (clusters.eraseIdx file) old files.disk.bytes faulty content
      (disk, memory) own) :
    Files.Keep vol faulty ⟨disk, files.chains.set file memory⟩ (contents.set file content)
      (clusters.set file own) := by
  have bound := (List.getElem?_eq_some_iff.mp there).1
  refine ⟨?_, ?_, fun i memory' content' own' chain present linked => ?_, held.holding.faults,
    held.holding.steady⟩
  · rw [List.length_set, List.length_set, keep.chains]
  · rw [List.length_set, List.length_set, keep.known]
  · have others {k : ℕ} {other : List ℕ} (apart : k ≠ file) (named : clusters[k]? = some other) :=
      held.holding.others other (List.mem_eraseIdx_iff_getElem?.mpr ⟨k, apart, named⟩)
    by_cases same : i = file
    · subst same
      rw [List.getElem?_set_self (by rwa [keep.chains])] at chain
      rw [List.getElem?_set_self (by rwa [keep.known])] at present
      rw [List.getElem?_set_self bound] at linked
      cases chain
      cases present
      cases linked
      rw [List.eraseIdx_set_eq]
      exact ⟨held.holding, List.prefix_refl _, held.size, held.bytes, fun _ _ _ => rfl⟩
    · have apart : file ≠ i := fun eq => same eq.symm
      rw [List.getElem?_set_ne apart] at chain present linked
      have before := keep.file i memory' content' own' chain present linked
      obtain ⟨still, foreign⟩ := others same linked
      refine ⟨⟨still, before.holding.apart, before.holding.knows, fun other member => ?_,
        held.holding.faults, held.holding.steady⟩, List.prefix_refl _, before.size,
        fun at_ natural below => ?_, fun _ _ _ => rfl⟩
      · obtain ⟨k, distinct, named⟩ := List.mem_eraseIdx_iff_getElem?.mp member
        by_cases changed : k = file
        · subst changed
          rw [List.getElem?_set_self bound] at named
          cases named
          exact ⟨held.holding.linked, fun c own both => foreign c both own⟩
        · rw [List.getElem?_set_ne fun eq => changed eq.symm] at named
          refine ⟨(others changed named).1, ?_⟩
          exact (before.holding.others other
            (List.mem_eraseIdx_iff_getElem?.mpr ⟨k, distinct, named⟩)).2
      · rw [before.bytes at_ natural below]
        refine (Scattered.view_congr sound.spans.positive (fun place within => ?_) natural ?_).symm
        · refine held.beside place (still.outsideTable sound within) fun both => ?_
          obtain ⟨c, inOther, inOwn⟩ := still.exists_of_within held.holding.linked within both
          exact foreign c inOther inOwn
        · rwa [Vol.length_sectorsOf, ← before.size]

/-- The files that are known, by their clusters. -/
theorem of_mem (keep : files.Keep vol faulty contents clusters) {own : List ℕ}
    (member : own ∈ clusters) : ∃ (file : ℕ) (memory : Memory) (content : Content),
      files.chains[file]? = some memory ∧
      contents[file]? = some content ∧ clusters[file]? = some own := by
  obtain ⟨file, named⟩ := List.mem_iff_getElem?.mp member
  have bound := (List.getElem?_eq_some_iff.mp named).1
  exact ⟨file, _, _, List.getElem?_eq_getElem (by rwa [keep.chains]),
    List.getElem?_eq_getElem (by rwa [keep.known]), named⟩

/-- The file of a chain. -/
theorem exists_file (keep : files.Keep vol faulty contents clusters) {file : ℕ} {memory : Memory}
    (chain : files.chains[file]? = some memory) : ∃ content own,
      contents[file]? = some content ∧ clusters[file]? = some own ∧
        vol.FileHolds (clusters.eraseIdx file) own files.disk.bytes faulty content
          (files.disk, memory) own := by
  have bound := (List.getElem?_eq_some_iff.mp chain).1
  rw [keep.chains] at bound
  have present := List.getElem?_eq_getElem (keep.known.symm ▸ bound : file < contents.length)
  have named := List.getElem?_eq_getElem bound
  exact ⟨_, _, present, named, keep.file file memory _ _ chain present named⟩

theorem linked (keep : files.Keep vol faulty contents clusters) {own : List ℕ}
    (member : own ∈ clusters) : vol.Linked files.disk.bytes own := by
  obtain ⟨file, memory, content, chain, present, named⟩ := keep.of_mem member
  exact (keep.file file memory content own chain present named).holding.linked

/-- The table changes, but not the links of the files. -/
theorem table (sound : vol.Sound) (keep : files.Keep vol faulty contents clusters) {disk : Disk}
    (linked : ∀ own ∈ clusters, vol.Linked disk.bytes own)
    (same : vol.SameOutside files.disk.bytes disk.bytes)
    (unfaulted : files.disk.faults = [] → disk.faults = []) :
    Files.Keep vol faulty ⟨disk, files.chains⟩ contents clusters := by
  have faults : ¬faulty → disk.faults = [] := fun never => unfaulted (keep.faults never)
  have steady : vol.Steady disk := fun twelve => unfaulted (keep.steady twelve)
  refine ⟨keep.chains, keep.known, fun file memory content own chain present named => ?_, faults,
    steady⟩
  have held := keep.file file memory content own chain present named
  refine ⟨⟨linked own (List.mem_of_getElem? named), held.holding.apart, held.holding.knows,
    fun other member => ⟨linked other (List.mem_of_mem_eraseIdx member),
      (held.holding.others other member).2⟩, faults, steady⟩, List.prefix_refl _, held.size,
    fun at_ natural below => ?_, fun _ _ _ => rfl⟩
  rw [held.bytes at_ natural below]
  refine (Scattered.view_congr sound.spans.positive (fun place within => ?_) natural ?_).symm
  · exact same place (held.holding.linked.outsideTable sound within)
  · rwa [Vol.length_sectorsOf, ← held.size]

/-- A file is new if its cluster belongs to no other. -/
theorem append (keep : files.Keep vol faulty contents clusters) {n : ℕ}
    (linked : vol.Linked files.disk.bytes [n]) (fresh : ∀ own ∈ clusters, n ∉ own) :
    Files.Keep vol faulty ⟨files.disk, files.chains ++ [Memory.ofFirst n]⟩
      (contents ++ [vol.blockContent (vol.sectorsOf [n]) files.disk.bytes])
      (clusters ++ [[n]]) := by
  have others {i : ℕ} {other : List ℕ} (member : other ∈ (clusters ++ [[n]]).eraseIdx i) :
      other ∈ clusters.eraseIdx i ∨ other = [n] ∧ i ≠ clusters.length := by
    obtain ⟨k, distinct, named⟩ := List.mem_eraseIdx_iff_getElem?.mp member
    obtain inner | outer := Nat.lt_or_ge k clusters.length
    · rw [List.getElem?_append_left inner] at named
      exact .inl (List.mem_eraseIdx_iff_getElem?.mpr ⟨k, distinct, named⟩)
    · have bound := (List.getElem?_eq_some_iff.mp named).1
      rw [List.length_append, List.length_singleton] at bound
      obtain rfl : k = clusters.length := by omega
      rw [List.getElem?_append_right (Nat.le_refl _), Nat.sub_self] at named
      exact .inr ⟨(Option.some.inj named).symm, distinct.symm⟩
  refine ⟨?_, ?_, fun i memory content own chain present named => ?_, keep.faults, keep.steady⟩
  · rw [List.length_append, List.length_append, keep.chains]
    rfl
  · rw [List.length_append, List.length_append, keep.known]
    rfl
  · have bound := (List.getElem?_eq_some_iff.mp named).1
    rw [List.length_append, List.length_singleton] at bound
    obtain inner | rfl : i < clusters.length ∨ i = clusters.length := by omega
    · rw [List.getElem?_append_left (by rwa [keep.chains])] at chain
      rw [List.getElem?_append_left (by rwa [keep.known])] at present
      rw [List.getElem?_append_left inner] at named
      have held := keep.file i memory content own chain present named
      refine ⟨⟨held.holding.linked, held.holding.apart, held.holding.knows, fun other member => ?_,
        keep.faults, keep.steady⟩, held.start, held.size, held.bytes, held.beside⟩
      obtain old | ⟨rfl, -⟩ := others member
      · exact held.holding.others other old
      · refine ⟨linked, fun c new => ?_⟩
        rw [List.mem_singleton.mp new]
        exact fresh own (List.mem_of_getElem? named)
    · rw [List.getElem?_append_right keep.chains.le, keep.chains, Nat.sub_self] at chain
      rw [List.getElem?_append_right keep.known.le, keep.known, Nat.sub_self] at present
      rw [List.getElem?_append_right (Nat.le_refl _), Nat.sub_self] at named
      cases chain
      cases present
      cases named
      refine ⟨⟨linked, List.nodup_singleton n, ⟨List.cons_ne_nil _ _, List.prefix_refl _,
        fun _ => rfl⟩, fun other member => ?_, keep.faults, keep.steady⟩, List.prefix_refl _,
        Vol.length_sectorsOf _, fun _ _ _ => rfl, fun _ _ _ => rfl⟩
      obtain old | ⟨-, distinct⟩ := others member
      · have file := List.mem_of_mem_eraseIdx old
        refine ⟨keep.linked file, fun c other_ both => ?_⟩
        rw [List.mem_singleton.mp both] at other_
        exact fresh other file other_
      · exact absurd rfl distinct

end Files.Keep

/-! ## Runs -/

section Runs

variable {vol : Vol} {faulty : Prop} {files : Files} {contents : List Content}
  {clusters : List (List ℕ)}

theorem set_self {α : Type} {values : List α} {value : α} {i : ℕ}
    (present : values[i]? = some value) : values.set i value = values := by
  obtain ⟨bound, rfl⟩ := List.getElem?_eq_some_iff.mp present
  exact List.set_getElem_self bound

/-- How a read is answered. -/
theorem step_read {file off : ℕ} {buffer : Bytes} {memory : Memory} {files' : Files}
    {result : Except Failure (ℤ × Bytes)} (chain : files.chains[file]? = some memory)
    (calls : files.onChain file memory ((clusterChain vol).readFromPosition
      (posFromOffset vol.sectorSize off) buffer) = (files', result)) :
    files.step vol (.read file off buffer) = (files', .read result) := by
  unfold Files.step
  simp only [chain, calls]

/-- How a write is answered. -/
theorem step_write {file off : ℕ} {data : Bytes} {memory : Memory} {files' : Files}
    {result : Except Failure Unit} (chain : files.chains[file]? = some memory)
    (calls : files.onChain file memory ((clusterChain vol).writeToPosition
      (posFromOffset vol.sectorSize off) data) = (files', result)) :
    files.step vol (.write file off data) = (files', .wrote result) := by
  unfold Files.step
  simp only [chain, calls]

/-- How a request for a file that is not there is answered. -/
theorem step_absent (vol : Vol) {file : ℕ} (chain : files.chains[file]? = none) :
    (∀ off buffer, files.step vol (.read file off buffer) = (files, .absent)) ∧
      (∀ off data, files.step vol (.write file off data) = (files, .absent)) ∧
      files.step vol (.reopen file) = (files, .absent) := by
  refine ⟨fun off buffer => ?_, fun off data => ?_, ?_⟩
  all_goals
    unfold Files.step
    simp only [chain]

/-- **A read accounts for its answer.** -/
theorem read_accounts (sound : vol.Sound) (keep : files.Keep vol faulty contents clusters)
    {file : ℕ} {memory : Memory} (chain : files.chains[file]? = some memory) (off : ℕ)
    (buffer : Bytes) : ∃ contents' clusters',
      Accounts vol.sectorSize faulty contents (.read file off buffer)
          (files.step vol (.read file off buffer)).2 contents' ∧
        (files.step vol (.read file off buffer)).1.Keep vol faulty contents' clusters' := by
  obtain ⟨content, old, present, named, held⟩ := keep.exists_file chain
  have keeps := Vol.clusterChain_keeps sound (clusters.eraseIdx file) old files.disk.bytes faulty
    False
  have offset : (posFromOffset vol.sectorSize off).offset < (clusterChain vol).sectorSize :=
    posFromOffset_lt sound.spans.positive off
  have place := posFromOffset_eq sound.spans.positive off
  have undone : contents.set file content = contents := set_self present
  by_cases exact_ : Chain.Undivided vol.sectorSize (off % vol.sectorSize) buffer.length ∧
      off + buffer.length ≤ content.size * vol.sectorSize
  · have inside : (posFromOffset vol.sectorSize off).sector * (clusterChain vol).sectorSize +
        (posFromOffset vol.sectorSize off).offset + buffer.length ≤
          content.size * (clusterChain vol).sectorSize := by
      change _ * vol.sectorSize + _ + _ ≤ _ * vol.sectorSize
      rw [place]
      exact exact_.2
    have reads := Chain.readFromPosition_ensures keeps ⟨_, held⟩ offset exact_.1 inside
    obtain ⟨disk, memory', result, calls, done, failed⟩ := Files.exists_onChain file reads
    rw [step_read chain calls]
    cases result with
    | ok value =>
        obtain ⟨⟨own, held'⟩, rfl⟩ := done value rfl
        refine ⟨contents, _, ⟨rfl, _, present, fun _ _ => .inl ?_⟩,
          undone ▸ keep.set sound named held'⟩
        change Except.ok ((buffer.length : ℤ), Extent.read content.bytes
          ((_ * vol.sectorSize + _ : ℕ) : ℤ) buffer.length) = _
        rw [place]
    | error failure =>
        obtain ⟨why, own, held'⟩ := failed failure rfl
        exact ⟨contents, _, ⟨rfl, _, present, fun _ _ => .inr ⟨why.resolve_right id, failure, rfl⟩⟩,
          undone ▸ keep.set sound named held'⟩
  · have reads := Chain.readFromPosition_holds keeps ⟨_, held⟩ offset buffer
    obtain ⟨disk, memory', result, calls, done, failed⟩ := Files.exists_onChain file reads
    rw [step_read chain calls]
    have held' : ∃ own, vol.FileHolds (clusters.eraseIdx file) old files.disk.bytes faulty
        content (disk, memory') own := by
      cases result with
      | ok value => exact done value rfl
      | error failure => exact failed failure rfl
    obtain ⟨own, held'⟩ := held'
    exact ⟨contents, _, ⟨rfl, _, present, fun undivided within =>
      absurd ⟨undivided, within⟩ exact_⟩, undone ▸ keep.set sound named held'⟩

/-- **A write accounts for its answer.** -/
theorem write_accounts (sound : vol.Sound) (keep : files.Keep vol faulty contents clusters)
    {file : ℕ} {memory : Memory} (chain : files.chains[file]? = some memory) (off : ℕ)
    (data : Bytes) : ∃ contents' clusters',
      Accounts vol.sectorSize faulty contents (.write file off data)
          (files.step vol (.write file off data)).2 contents' ∧
        (files.step vol (.write file off data)).1.Keep vol faulty contents' clusters' := by
  obtain ⟨content, old, present, named, held⟩ := keep.exists_file chain
  have positive := sound.spans.positive
  have offset : (posFromOffset vol.sectorSize off).offset < (clusterChain vol).sectorSize :=
    posFromOffset_lt positive off
  have place := posFromOffset_eq positive off
  have keeps := Vol.clusterChain_keeps sound (clusters.eraseIdx file) old files.disk.bytes faulty
    (¬(off < content.size * vol.sectorSize ∧ off + data.length ≤ content.size * vol.sectorSize))
  obtain ⟨last, room, one, reaches⟩ : ∃ last,
      (last ≤ content.size ∨ ¬(off < content.size * vol.sectorSize ∧
        off + data.length ≤ content.size * vol.sectorSize)) ∧
      (posFromOffset vol.sectorSize off).sector + 1 ≤ last ∧
      (posFromOffset vol.sectorSize off).sector * (clusterChain vol).sectorSize +
        (posFromOffset vol.sectorSize off).offset + data.length ≤
          last * (clusterChain vol).sectorSize := by
    change ∃ last, _ ∧ _ ∧ _ * vol.sectorSize + _ + _ ≤ last * vol.sectorSize
    rw [place]
    by_cases within : off < content.size * vol.sectorSize ∧
        off + data.length ≤ content.size * vol.sectorSize
    · refine ⟨content.size, .inl (Nat.le_refl _), ?_, within.2⟩
      refine Nat.lt_of_mul_lt_mul_right (a := vol.sectorSize) ?_
      omega
    · refine ⟨(posFromOffset vol.sectorSize off).sector + 1 + data.length, .inr within,
        Nat.le_add_right _ _, ?_⟩
      have behind := Nat.le_mul_of_pos_right data.length positive
      change (posFromOffset vol.sectorSize off).offset < vol.sectorSize at offset
      rw [Nat.add_mul, Nat.succ_mul]
      omega
  have writes := Chain.writeToPosition_ensures keeps ⟨_, held⟩ offset room one reaches
  have at_ : ((posFromOffset vol.sectorSize off).sector : ℤ) * (clusterChain vol).sectorSize +
      (posFromOffset vol.sectorSize off).offset = (off : ℕ) := by
    change ((posFromOffset vol.sectorSize off).sector : ℤ) * vol.sectorSize + _ = _
    exact_mod_cast place
  rw [at_] at writes
  obtain ⟨disk, memory', result, calls, done, failed⟩ := Files.exists_onChain file writes
  rw [step_write chain calls]
  cases result with
  | ok value =>
      obtain ⟨content', ⟨own, held'⟩, written⟩ := done value rfl
      exact ⟨_, _, ⟨content, content', present, rfl, written⟩, keep.set sound named held'⟩
  | error failure =>
      obtain ⟨why, content', ⟨own, held'⟩, touched⟩ := failed failure rfl
      refine ⟨_, _, ⟨content, content', present, rfl, touched, fun inside within => ?_⟩,
        keep.set sound named held'⟩
      exact why.resolve_right (not_not_intro ⟨inside, within⟩)

/-- **A new chain knows the file again.** -/
theorem reopen_accounts (sound : vol.Sound) (keep : files.Keep vol faulty contents clusters)
    {file : ℕ} {memory : Memory} (chain : files.chains[file]? = some memory) :
    Files.Keep vol faulty
      ⟨files.disk, files.chains.set file (Memory.ofFirst (Files.firstCluster memory))⟩
      contents clusters := by
  obtain ⟨content, own, present, named, held⟩ := keep.exists_file chain
  have knows : (Memory.ofFirst (Files.firstCluster memory)).Knows own := by
    have known := held.holding.knows
    refine ⟨List.cons_ne_nil _ _, ?_, fun absurd_ => ?_⟩
    · obtain ⟨rest, rfl⟩ := known.first
      cases cache : memory.cache with
      | nil => exact absurd cache known.some
      | cons c more =>
          refine ⟨more ++ rest, ?_⟩
          unfold Memory.ofFirst Files.firstCluster
          rw [cache]
          rfl
    · cases absurd_
  have held' : vol.FileHolds (clusters.eraseIdx file) own files.disk.bytes faulty content
      (files.disk, Memory.ofFirst (Files.firstCluster memory)) own :=
    ⟨held.holding.same rfl knows fun none => none, held.start, held.size, held.bytes, held.beside⟩
  have again := keep.set sound named held'
  rwa [set_self present, set_self named] at again

/-- **A new file has a cluster of its own**, or nothing but the table has changed. -/
theorem create_accounts (sound : vol.Sound) (keep : files.Keep vol faulty contents clusters)
    (directory : Option ℕ) : ∃ contents' clusters',
      Accounts vol.sectorSize faulty contents (.create directory)
          (files.step vol (.create directory)).2 contents' ∧
        (files.step vol (.create directory)).1.Keep vol faulty contents' clusters' := by
  have two : 2 ≤ files.hint directory := by
    unfold Files.hint
    cases found : directory.bind (files.chains[·]?) with
    | none => exact Nat.le_refl 2
    | some memory =>
        obtain ⟨file, -, chain⟩ := Option.bind_eq_some_iff.mp found
        obtain ⟨content, own, present, named, held⟩ := keep.exists_file chain
        have known := held.holding.knows
        cases cache : memory.cache with
        | nil => exact absurd cache known.some
        | cons c more =>
            have first : Files.firstCluster memory = c := by
              unfold Files.firstCluster
              rw [cache]
              rfl
            change 2 ≤ Files.firstCluster memory
            rw [first]
            refine (held.holding.linked.usable c (known.first.subset ?_)).two
            rw [cache]
            exact List.mem_cons_self
  have allocates := Vol.allocateInFAT_ensures sound keep.steady (files.hint directory)
  unfold Files.step Procedure.Ensures at *
  dsimp only at *
  generalize vol.allocateInFAT (files.hint directory) files.disk = reached at allocates ⊢
  obtain ⟨result, disk⟩ := reached
  have free {n : ℕ} (zero : vol.entry files.disk.bytes n = 0) (own : List ℕ)
      (member : own ∈ clusters) : n ∉ own :=
    fun taken => (keep.linked member).taken taken zero
  have marked {n : ℕ} (below : (n : ℤ) < vol.countofClusters)
      (zero : vol.entry files.disk.bytes n = 0)
      (stores : vol.Stores files.disk.bytes disk.bytes n vol.fatType.eof)
      (unfaulted : files.disk.faults = [] → disk.faults = []) :
      Files.Keep vol faulty ⟨disk, files.chains⟩ contents clusters :=
    keep.table sound (fun own member => (keep.linked member).stores stores (free zero own member))
      (stores.sameOutside sound below) unfaulted
  cases result with
  | ok n =>
      obtain ⟨low, below, whole, zero, -, stores, unfaulted⟩ := allocates
      have linked : vol.Linked disk.bytes [n] := by
        refine ⟨List.cons_ne_nil _ _, fun c member => ?_, fun i c there => ?_⟩
        · rw [List.mem_singleton.mp member]
          exact ⟨two.trans low, below, whole⟩
        · cases i with
          | zero =>
              cases there
              rw [stores.entry]
              exact Vol.statusOf_eof _
          | succ i => cases there
      exact ⟨_, _, ⟨_, rfl⟩, (marked below zero stores unfaulted).append linked (free zero)⟩
  | error failure =>
      obtain ⟨-, changed, unfaulted⟩ := allocates
      refine ⟨contents, clusters, rfl, ?_⟩
      obtain same | ⟨n, -, below, zero, stores⟩ := changed
      · refine keep.table sound (fun own member => ?_) (fun at_ _ => congrFun same at_) unfaulted
        rw [same]
        exact keep.linked member
      · exact marked below zero stores unfaulted

/-- **Every request accounts for its answer.** -/
theorem step_accounts (sound : vol.Sound) (keep : files.Keep vol faulty contents clusters)
    (request : Request) : ∃ contents' clusters',
      Accounts vol.sectorSize faulty contents request (files.step vol request).2 contents' ∧
        (files.step vol request).1.Keep vol faulty contents' clusters' := by
  have absent {file : ℕ} (chain : files.chains[file]? = none) : contents.length ≤ file := by
    have beyond := List.getElem?_eq_none_iff.mp chain
    rwa [keep.known, ← keep.chains]
  cases request with
  | read file off buffer =>
      cases chain : files.chains[file]? with
      | none =>
          rw [(step_absent vol chain).1 off buffer]
          exact ⟨contents, clusters, ⟨rfl, absent chain⟩, keep⟩
      | some memory => exact read_accounts sound keep chain off buffer
  | write file off data =>
      cases chain : files.chains[file]? with
      | none =>
          rw [(step_absent vol chain).2.1 off data]
          exact ⟨contents, clusters, ⟨rfl, absent chain⟩, keep⟩
      | some memory => exact write_accounts sound keep chain off data
  | reopen file =>
      cases chain : files.chains[file]? with
      | none =>
          rw [(step_absent vol chain).2.2]
          exact ⟨contents, clusters, ⟨rfl, absent chain⟩, keep⟩
      | some memory =>
          have step : files.step vol (.reopen file) =
              (⟨files.disk, files.chains.set file (Memory.ofFirst (Files.firstCluster memory))⟩,
                .opened) := by
            unfold Files.step
            simp only [chain]
          rw [step]
          have bound := (List.getElem?_eq_some_iff.mp chain).1
          refine ⟨contents, clusters, ⟨rfl, ?_⟩, reopen_accounts sound keep chain⟩
          rwa [keep.known, ← keep.chains]
  | create directory => exact create_accounts sound keep directory

/-- A content has data at a position. -/
structure Content.Has (sectorSize : ℕ) (content : Content) (off : ℕ) (data : Bytes) : Prop where
  reaches : off + data.length ≤ content.size * sectorSize
  bytes : Extent.read content.bytes off data.length = data

namespace Content.Has

variable {sectorSize off : ℕ} {before after : Content} {data : Bytes}

/-- What has been written is there. -/
theorem of_written (written : before.Written sectorSize after off data) :
    after.Has sectorSize off data :=
  ⟨by exact_mod_cast written.reaches, written.read (Int.natCast_nonneg off)⟩

/-- What is there stays beside what is written, even in part. -/
theorem touched {off' : ℕ} {data' : Bytes} (has : before.Has sectorSize off data)
    (touched : before.Touched sectorSize after off' data')
    (apart : off' + data'.length ≤ off ∨ off + data.length ≤ off') :
    after.Has sectorSize off data := by
  have reaches : (off : ℤ) + data.length ≤ before.size * sectorSize := by
    exact_mod_cast has.reaches
  refine ⟨has.reaches.trans (Nat.mul_le_mul_right sectorSize touched.grows), ?_⟩
  rw [← has.bytes, Extent.length_read]
  exact Extent.read_congr fun i inside => touched.outside (by omega) (by omega) (by omega)

/-- A part of the data is read. -/
theorem read_part (has : before.Has sectorSize off data) {start count : ℕ}
    (part : start + count ≤ data.length) :
    Extent.read before.bytes ((off + start : ℕ) : ℤ) count = (data.drop start).take count := by
  have dropped : (Extent.read before.bytes off data.length).drop start = _ :=
    Extent.drop_read (by omega)
  rw [has.bytes] at dropped
  rw [dropped, Extent.take_read (by omega), Int.natCast_add]

end Content.Has

/-- A request that does not write into a part of a file. -/
def Request.Spares (file off length : ℕ) : Request → Prop
  | .write file' off' data => file' = file → off' + data.length ≤ off ∨ off + length ≤ off'
  | .read _ _ _ => True
  | .reopen _ => True
  | .create _ => True

/-- **Data outlives every request that spares it.** -/
theorem Accounts.has {sectorSize file off : ℕ} {data : Bytes} {before after : List Content}
    {request : Request} {answer : Answer} {content : Content}
    (accounts : Accounts sectorSize faulty before request answer after)
    (spares : request.Spares file off data.length) (present : before[file]? = some content)
    (has : content.Has sectorSize off data) :
    ∃ content', after[file]? = some content' ∧ content'.Has sectorSize off data := by
  have unchanged (same : after = before) :
      ∃ content', after[file]? = some content' ∧ content'.Has sectorSize off data :=
    ⟨content, same ▸ present, has⟩
  cases request with
  | read file' off' buffer =>
      cases answer with
      | read result => exact unchanged accounts.1
      | absent => exact unchanged accounts.1
      | _ => exact accounts.elim
  | reopen file' =>
      cases answer with
      | opened => exact unchanged accounts.1
      | absent => exact unchanged accounts.1
      | _ => exact accounts.elim
  | create directory =>
      cases answer with
      | created result =>
          cases result with
          | ok clusterNum =>
              obtain ⟨fresh, rfl⟩ := accounts
              have bound := (List.getElem?_eq_some_iff.mp present).1
              exact ⟨content, by rwa [List.getElem?_append_left bound], has⟩
          | error failure => exact unchanged accounts
      | _ => exact accounts.elim
  | write file' off' data' =>
      cases answer with
      | wrote result =>
          obtain ⟨old, new, there, rfl, outcome⟩ := accounts
          have touched : old.Touched sectorSize new off' data' := by
            cases result with
            | ok value => exact Content.Written.touched outcome
            | error failure => exact outcome.1
          by_cases same : file' = file
          · subst same
            cases there.symm.trans present
            have bound := (List.getElem?_eq_some_iff.mp present).1
            exact ⟨new, List.getElem?_set_self bound, has.touched touched (spares rfl)⟩
          · exact ⟨content, by rwa [List.getElem?_set_ne same], has⟩
      | absent => exact unchanged accounts.1
      | _ => exact accounts.elim

/-- The files are kept, and one of them has data at a position. -/
def Files.KeepsData (vol : Vol) (faulty : Prop) (file off : ℕ) (data : Bytes) (files : Files) :
    Prop :=
  ∃ contents clusters content, files.Keep vol faulty contents clusters ∧
    contents[file]? = some content ∧ content.Has vol.sectorSize off data

/-- A request that spares the data leaves it where it is. -/
theorem step_keepsData (sound : vol.Sound) {file off : ℕ} {data : Bytes}
    (keeps : files.KeepsData vol faulty file off data) {request : Request}
    (spares : request.Spares file off data.length) :
    (files.step vol request).1.KeepsData vol faulty file off data := by
  obtain ⟨contents, clusters, content, keep, present, has⟩ := keeps
  obtain ⟨contents', clusters', accounts, keep'⟩ := step_accounts sound keep request
  obtain ⟨content', present', has'⟩ := accounts.has spares present has
  exact ⟨contents', clusters', content', keep', present', has'⟩

/-- A run of requests that spare the data leaves it where it is. -/
theorem run_keepsData (sound : vol.Sound) {file off : ℕ} {data : Bytes}
    (keeps : files.KeepsData vol faulty file off data) {requests : List Request}
    (spare : ∀ request ∈ requests, request.Spares file off data.length) :
    (Refinement.final (Files.step vol) files requests).KeepsData vol faulty file off data :=
  Transition.run_invariant (fun files : Files => files.KeepsData vol faulty file off data)
    (fun _ _ keeps spares => step_keepsData sound keeps spares) keeps
    (Transition.Along.of_inputs spare)

/-- A write that is done leaves its data. -/
theorem write_keepsData (sound : vol.Sound) (keep : files.Keep vol faulty contents clusters)
    {file off : ℕ} {data : Bytes}
    (wrote : (files.step vol (.write file off data)).2 = .wrote (.ok ())) :
    (files.step vol (.write file off data)).1.KeepsData vol faulty file off data := by
  obtain ⟨contents', clusters', accounts, keep'⟩ :=
    step_accounts sound keep (.write file off data)
  rw [wrote] at accounts
  obtain ⟨before, after, present, rfl, written⟩ := accounts
  have bound := (List.getElem?_eq_some_iff.mp present).1
  exact ⟨_, clusters', after, keep', List.getElem?_set_self bound, .of_written written⟩

/-- A part of the data that is read undivided is read as it was written, if the device reads. -/
theorem read_keepsData (sound : vol.Sound) {file off : ℕ} {data : Bytes}
    (keeps : files.KeepsData vol faulty file off data) (start : ℕ) (buffer : Bytes)
    (part : start + buffer.length ≤ data.length)
    (undivided :
      Chain.Undivided vol.sectorSize ((off + start) % vol.sectorSize) buffer.length) :
    (files.step vol (.read file (off + start) buffer)).2 =
        .read (.ok ((buffer.length : ℤ), (data.drop start).take buffer.length)) ∨
      faulty ∧ ∃ failure,
        (files.step vol (.read file (off + start) buffer)).2 = .read (.error failure) := by
  obtain ⟨contents, clusters, content, keep, present, has⟩ := keeps
  obtain ⟨contents', clusters', accounts, -⟩ :=
    step_accounts sound keep (.read file (off + start) buffer)
  have bound := (List.getElem?_eq_some_iff.mp present).1
  have within := has.reaches
  generalize (files.step vol (.read file (off + start) buffer)).2 = answer at accounts ⊢
  cases answer with
  | read result =>
      obtain ⟨-, content', there, reads⟩ := accounts
      cases there.symm.trans present
      obtain rfl | ⟨fails, failure, rfl⟩ := reads undivided (by omega)
      · rw [has.read_part part]
        exact .inl rfl
      · exact .inr ⟨fails, failure, rfl⟩
  | absent => exact absurd accounts.2 (Nat.not_le_of_lt bound)
  | _ => exact accounts.elim

/-- A blank floppy on which one file is started. -/
def Files.oneOnFloppy : Files := (Files.step floppy ⟨⟨fun _ => 0, []⟩, []⟩ (.create none)).1

end Runs

end JsOS.Core.Fs.Fat
