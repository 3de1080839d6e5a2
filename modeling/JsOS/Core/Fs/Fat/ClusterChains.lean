import JsOS.Core.Fs.Fat.TableUpdates
import JsOS.Library.Scattered

/-! # Chains of clusters

The sectors of a file lie in clusters, each of which names the next one in the table. A chain
remembers the clusters that it has come across, goes on in the table when it needs more, and takes
free ones when it writes beyond the last. Clusters that follow each other are read and written at
once.
-/

namespace JsOS.Core.Fs.Fat

open Framing (Bytes)
open Procedure (fail look change ofExcept)

/-! ## The memory of a chain -/

/-- `cache`, and whether `'eof'` stands behind its clusters (`_cacheIsComplete`). -/
structure Memory where
  cache : List ℕ
  complete : Bool
  deriving DecidableEq, Repr

/-- What a chain works on: the device and its own memory. -/
abbrev ChainState := Disk × Memory

/-- A call that uses the device and the memory of a chain. -/
abbrev ChainIo (α : Type) := Procedure ChainState Failure α

/-- A call that uses the device only. -/
def onDisk {α : Type} (io : Io α) : ChainIo α :=
  io.within Prod.fst fun disk state => (disk, state.2)

/-- A change of the memory. -/
def remember (update : Memory → Memory) : ChainIo Unit :=
  change fun state => (state.1, update state.2)

theorem ensures_onDisk {α : Type} {io : Io α} {state : ChainState} {done : α → ChainState → Prop}
    {failed : Failure → ChainState → Prop} : (onDisk io).Ensures state done failed ↔
      io.Ensures state.1 (fun value disk => done value (disk, state.2))
        fun failure disk => failed failure (disk, state.2) := Procedure.ensures_within

/-- `cache.push` of a cluster. -/
def Memory.push (memory : Memory) (clusterNum : ℕ) : Memory :=
  { memory with cache := memory.cache ++ [clusterNum] }

/-- `cache.push('eof')`. -/
def Memory.pushEof (memory : Memory) : Memory := { memory with complete := true }

/-- `cache.pop` of `'eof'`. -/
def Memory.popEof (memory : Memory) : Memory := { memory with complete := false }

/-- The memory of a new chain. -/
def Memory.ofFirst (firstCluster : ℕ) : Memory := ⟨[firstCluster], false⟩

namespace Vol

variable (vol : Vol)

/-- `extendCacheToInclude`, by how many entries the cache is too short. -/
def extendCache : ℕ → ChainIo Unit
  | 0 => pure ()
  | left + 1 => do
      let memory ← look Prod.snd
      if memory.complete then pure ()
      else
        match ← onDisk (vol.fetchFromFAT (memory.cache.getLastD 0)) with
        | .eof => remember Memory.pushEof
        | .next clusterNum => do
            remember (·.push clusterNum)
            extendCache left
        | _ => fail (.err .io)

/-- `extendCacheToInclude`: whether what is at the index is `'eof'`. -/
def extendCacheToInclude (i : ℤ) : ChainIo Bool := do
  let memory ← look Prod.snd
  vol.extendCache (i + 1 - memory.cache.length).toNat
  let memory ← look Prod.snd
  pure (decide (memory.cache.length ≤ i))

/-- `addCluster`. -/
def addCluster : ℕ → ℕ → ChainIo Unit
  | 0, _ => remember Memory.pushEof
  | clustersNeeded + 1, lastCluster => do
      let newCluster ← onDisk (vol.allocateInFAT lastCluster)
      onDisk (vol.storeToFAT lastCluster newCluster)
      remember (·.push newCluster)
      addCluster clustersNeeded newCluster

/-- `expandChainToLength`. -/
def expandChainToLength (clusterCount : ℕ) : ChainIo Unit := do
  let memory ← look Prod.snd
  if memory.complete then do
    remember Memory.popEof
    vol.addCluster (clusterCount - memory.cache.length) (memory.cache.getLastD 0)
  else fail .cacheIncomplete

/-! ## Groups of sectors -/

/-- `_group`. -/
structure Group where
  nextCluster : ℕ
  firstSector : ℤ
  numSectors : ℕ
  deriving DecidableEq, Repr

/-- A group that begins with a sector of a cluster. -/
def group (c sectorOffset : ℕ) : Group where
  nextCluster := c + 1
  firstSector := vol.firstSectorOfCluster c + sectorOffset
  numSectors := vol.sectorsPerCluster - sectorOffset

/-- The groups of the clusters behind those of `_group`. -/
def groupsFrom (group : Group) : List ℕ → List Group
  | [] => [group]
  | c :: clusters =>
      if c ≠ group.nextCluster then group :: groupsFrom (vol.group c 0) clusters
      else
        groupsFrom { group with
          nextCluster := group.nextCluster + 1
          numSectors := group.numSectors + vol.sectorsPerCluster } clusters

/-- `_determineSectorGroups`: the groups of some clusters, from a sector of the first one on. -/
def groupsOf (sectorOffset : ℕ) : List ℕ → List Group
  | [] => []
  | c :: clusters => vol.groupsFrom (vol.group c sectorOffset) clusters

/-- The first part of `determineSectorGroups`: the clusters are looked for, or taken. -/
def provideClusters (chainLength : ℕ) (alloc : Bool) : ChainIo Unit := do
  let eof ← vol.extendCacheToInclude (chainLength - 1 : ℤ)
  if eof && alloc then vol.expandChainToLength chainLength else pure ()

/-- `determineSectorGroups`: the groups, and whether they are complete. -/
def determineSectorGroups (sectorIdx numSectors : ℕ) (alloc : Bool) :
    ChainIo (List Group × Bool) := do
  let sectorOffset := sectorIdx % vol.sectorsPerCluster
  let clusterIdx := (sectorIdx - sectorOffset) / vol.sectorsPerCluster
  let numClusters := (numSectors + sectorOffset + vol.sectorsPerCluster - 1) / vol.sectorsPerCluster
  let chainLength := clusterIdx + numClusters
  vol.provideClusters chainLength alloc
  let memory ← look Prod.snd
  let clusters := (memory.cache.drop clusterIdx).take numClusters
  pure (vol.groupsOf sectorOffset clusters, decide (clusters.length = numClusters))

/-! ## Reading and writing -/

/-- An error for the callback is kept until the other groups have been gone through. -/
def keepError {α : Type} (io : Io α) : Io (Except Failure α) := do
  match ← io.attempt with
  | .ok value => pure (.ok value)
  | .error failure => if failure.isError then pure (.error failure) else fail failure

/-- The groups are read, each into its part of the buffer. -/
def readGroups : List Group → ℕ → Io Bytes
  | [], _ => pure []
  | group :: groups, length => do
      let groupLength := min (group.numSectors * vol.sectorSize) length
      let d ← keepError (vol.readSectors group.firstSector groupLength)
      let rest ← keepError (readGroups groups (length - groupLength))
      ofExcept (do
        let d ← d
        let rest ← rest
        pure (d ++ rest))

/-- Each group is written with its part of the data. -/
def writeGroups : List Group → Bytes → Io Unit
  | [], _ => pure ()
  | group :: groups, data => do
      let groupLength := group.numSectors * vol.sectorSize
      let written ← keepError (vol.writeSectors group.firstSector (data.take groupLength))
      let rest ← keepError (writeGroups groups (data.drop groupLength))
      ofExcept (do
        written
        rest)

end Vol

/-- `clusterChain`. -/
def clusterChain (vol : Vol) : Chain ChainState where
  sectorSize := vol.sectorSize
  readSectors i length := do
    let (groups, complete) ← vol.determineSectorGroups i (length / vol.sectorSize) false
    if complete then do
      let dest ← onDisk (vol.readGroups groups length)
      pure (some dest)
    else pure none
  writeSectors i data := do
    let (groups, _) ← vol.determineSectorGroups i (data.length / vol.sectorSize) true
    onDisk (vol.writeGroups groups data)

end JsOS.Core.Fs.Fat
