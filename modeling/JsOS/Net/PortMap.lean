import Mathlib.Data.Finset.Card
import Mathlib.Order.Lattice.Nat
import JsOS.Library.Refinement
import JsOS.Net.PortAllocator

/-! # The port allocator as a map

What the allocator is for: a partial map from ports to sockets (`PortMap`). The array,
the map, the search hint and the counter of `PortAllocator` together represent such a
map (`PortAllocator.Represents`): every slot below the hint is in use, and the counter
counts the ports in use.
-/

namespace JsOS.Net

/-! ## The map -/

/-- The sockets that hold ports. -/
structure PortMap (Socket : Type) where
  socket : Nat → Option Socket
  isPort : ∀ port, (socket port).isSome → isPort port

namespace PortMap

variable {Socket : Type}

/-- No port is in use. -/
def empty : PortMap Socket := ⟨fun _ => none, fun _ present => (Bool.false_ne_true present).elim⟩

/-- Give a port to a socket. -/
def assign (map : PortMap Socket) (port : Nat) (valid : Net.isPort port) (socket : Socket) :
    PortMap Socket where
  socket other := if other = port then some socket else map.socket other
  isPort other present := by
    split at present
    · next same => rwa [same]
    · exact map.isPort other present

/-- Take a port back. -/
def release (map : PortMap Socket) (port : Nat) : PortMap Socket where
  socket other := if other = port then none else map.socket other
  isPort other present := by
    split at present
    · cases present
    · exact map.isPort other present

/-- The ephemeral ports that are free. -/
def freeEphemeral (map : PortMap Socket) : Set Nat :=
  {port | PortAllocator.isEphemeralRange port ∧ map.socket port = none}

/-- The ports that are in use. -/
def inUse (map : PortMap Socket) : Finset Nat :=
  (Finset.range 65536).filter fun port => (map.socket port).isSome

/-- How many ports are in use. -/
def count (map : PortMap Socket) : Nat := map.inUse.card

theorem ext_socket {map after : PortMap Socket} (same : ∀ port, map.socket port = after.socket port) :
    map = after := by
  cases map
  cases after
  congr 1
  exact funext same

theorem mem_inUse {map : PortMap Socket} {port : Nat} :
    port ∈ map.inUse ↔ (map.socket port).isSome := by
  rw [inUse, Finset.mem_filter, Finset.mem_range, and_iff_right_iff_imp]
  exact fun present => ((isPort_iff port).mp (map.isPort port present)).2

theorem count_assign {map : PortMap Socket} {port : Nat} (free : map.socket port = none)
    (valid : Net.isPort port) (socket : Socket) :
    (map.assign port valid socket).count = map.count + 1 := by
  have absent : port ∉ map.inUse := by
    rw [mem_inUse, free]
    exact Bool.false_ne_true
  rw [count, count, ← Finset.card_insert_of_notMem absent]
  refine congrArg Finset.card (Finset.ext fun other => ?_)
  rw [Finset.mem_insert, mem_inUse, mem_inUse]
  change (if other = port then some socket else map.socket other).isSome ↔ _
  split
  · next same => exact iff_of_true rfl (.inl same)
  · next different => exact (or_iff_right different).symm

theorem count_release {map : PortMap Socket} {port : Nat} (taken : (map.socket port).isSome) :
    (map.release port).count + 1 = map.count := by
  have absent : port ∉ (map.release port).inUse := by
    rw [mem_inUse]
    simp [release]
  rw [count, count, ← Finset.card_insert_of_notMem absent]
  refine congrArg Finset.card (Finset.ext fun other => ?_)
  rw [Finset.mem_insert, mem_inUse, mem_inUse]
  change _ ∨ (if other = port then none else map.socket other).isSome ↔ _
  split
  · next same => exact iff_of_true (.inl same) (same ▸ taken)
  · next different => exact or_iff_right different

theorem release_of_free {map : PortMap Socket} {port : Nat} (free : map.socket port = none) :
    map.release port = map := by
  refine ext_socket fun other => ?_
  change (if other = port then none else map.socket other) = _
  split
  · next same => rw [same, free]
  · rfl

end PortMap

/-! ## Operations and their results -/

/-- What users of an allocator do. -/
inductive PortOperation (Socket : Type) where
  | allocEphemeral (socket : Socket)
  | allocPort (port : Nat) (socket : Socket)
  | free (port : Nat)
  | lookup (port : Nat)
  | allocatedCount

/-- What they get; `failed` when an assertion fails. -/
inductive PortResult (Socket : Type) where
  | port (port : Nat)
  | allocated (success : Bool)
  | freed
  | found (socket : Option Socket)
  | count (count : Int)
  | failed

namespace PortAllocator

variable {Socket : Type}

/-- One operation on the allocator. -/
def operate (ports : PortAllocator Socket) :
    PortOperation Socket → PortAllocator Socket × PortResult Socket
  | .allocEphemeral socket =>
      ((ports.allocEphemeral socket).2, .port (ports.allocEphemeral socket).1)
  | .allocPort port socket =>
      match ports.allocPort port socket with
      | some (success, after) => (after, .allocated success)
      | none => (ports, .failed)
  | .free port =>
      match ports.free port with
      | some after => (after, .freed)
      | none => (ports, .failed)
  | .lookup port => (ports, .found (ports.lookup port))
  | .allocatedCount => (ports, .count ports.allocated)

end PortAllocator

namespace PortMap

variable {Socket : Type}

/-- One operation on the map. An ephemeral port is the lowest free one; there is none when
the infimum of the free ones is 0. -/
noncomputable def operate (map : PortMap Socket) :
    PortOperation Socket → PortMap Socket × PortResult Socket
  | .allocEphemeral socket =>
      if valid : Net.isPort (sInf map.freeEphemeral) then
        (map.assign (sInf map.freeEphemeral) valid socket, .port (sInf map.freeEphemeral))
      else (map, .port 0)
  | .allocPort port socket =>
      if valid : Net.isPort port then
        if (map.socket port).isSome then (map, .allocated false)
        else (map.assign port valid socket, .allocated true)
      else (map, .failed)
  | .free port => if Net.isPort port then (map.release port, .freed) else (map, .failed)
  | .lookup port => (map, .found (map.socket port))
  | .allocatedCount => (map, .count map.count)

/-- What the map does for an ephemeral port: nothing if all are in use, and otherwise it
assigns the lowest free one. -/
theorem operate_allocEphemeral (map : PortMap Socket) (socket : Socket) :
    (map.freeEphemeral = ∅ ∧ map.operate (.allocEphemeral socket) = (map, .port 0)) ∨
    ∃ port, IsLeast map.freeEphemeral port ∧ ∃ valid, map.operate (.allocEphemeral socket) =
      (map.assign port valid socket, .port port) := by
  rcases map.freeEphemeral.eq_empty_or_nonempty with none | some
  · refine .inl ⟨none, ?_⟩
    have invalid : ¬ Net.isPort (sInf map.freeEphemeral) := by
      rw [none, Nat.sInf_empty]
      decide
    exact dif_neg invalid
  · have lowest := Nat.sInf_mem some
    have valid : Net.isPort (sInf map.freeEphemeral) := by
      obtain ⟨lower, upper⟩ := (PortAllocator.isEphemeralRange_iff _).mp lowest.1
      rw [ephemeralPortFirst] at lower upper
      rw [ephemeralPortCount] at upper
      rw [isPort_iff]
      omega
    exact .inr ⟨_, ⟨lowest, fun _ => Nat.sInf_le⟩, valid, dif_pos valid⟩

end PortMap

namespace PortAllocator

variable {Socket : Type}

/-! ## The lowest free port -/

/-- No slot below the search hint is free. -/
structure Hinted (ports : PortAllocator Socket) : Prop where
  inside : ports.searchStart ≤ ports.sockets.length
  taken : ∀ index < ports.searchStart, (ports.lookup (ephemeralPortFirst + index)).isSome

theorem isSome_lookup_of_mapped {ports : PortAllocator Socket} {port : Nat}
    (mapped : (ports.mapped port).isSome) : (ports.lookup port).isSome := by
  obtain ⟨socket, found⟩ := Option.isSome_iff_exists.mp mapped
  rw [lookup_of_mapped found]
  rfl

/-- A slot that the loop passes over is in use. -/
theorem taken_of_passed {ports : PortAllocator Socket} {index : Nat}
    (below : index < ports.sockets.length) (bounded : ports.sockets.length ≤ ephemeralPortCount)
    (passed : ¬ (ports.sockets[index]? = some none ∧
      ports.mapped (ephemeralPortFirst + index) = none)) :
    (ports.lookup (ephemeralPortFirst + index)).isSome := by
  cases mapped : ports.mapped (ephemeralPortFirst + index) with
  | some socket => exact isSome_lookup_of_mapped (by rw [mapped]; rfl)
  | none =>
      rw [lookup_of_not_mapped mapped, if_pos (isEphemeralRange_add (Nat.lt_of_lt_of_le below bounded)),
        Nat.add_sub_cancel_left, slot, List.getElem?_eq_getElem below]
      cases entry : ports.sockets[index] with
      | some socket => rfl
      | none => exact absurd ⟨by rw [List.getElem?_eq_getElem below, entry], mapped⟩ passed

/-- The loop stops at the first slot that is free. -/
theorem freeSlot_lowest {ports : PortAllocator Socket} {count first : Nat} :
    (∀ index, ports.freeSlot count first = some index → first ≤ index ∧ index < first + count ∧
      ∀ other, first ≤ other → other < index → ¬ (ports.sockets[other]? = some none ∧
        ports.mapped (ephemeralPortFirst + other) = none)) ∧
      (ports.freeSlot count first = none → ∀ other, first ≤ other → other < first + count →
        ¬ (ports.sockets[other]? = some none ∧
          ports.mapped (ephemeralPortFirst + other) = none)) := by
  induction count generalizing first with
  | zero =>
      refine ⟨fun index found => (by cases found), fun _ other lower upper => ?_⟩
      omega
  | succ count ih =>
      obtain ⟨found, missing⟩ := @ih (first + 1)
      have here {other : Nat} {P : Prop} (lower : first ≤ other)
          (same : other = first → P) (later : first + 1 ≤ other → P) : P := by
        rcases Nat.lt_or_ge first other with beyond | not_beyond
        · exact later beyond
        · exact same (Nat.le_antisymm not_beyond lower)
      unfold freeSlot
      split
      · next free unmapped =>
          refine ⟨fun index stops => ?_, fun none => (by cases none)⟩
          cases stops
          exact ⟨Nat.le_refl _, by omega, fun other lower upper => by omega⟩
      · next passed =>
          have skipped : ¬ (ports.sockets[first]? = some none ∧
              ports.mapped (ephemeralPortFirst + first) = none) := fun free =>
            passed free.1 free.2
          refine ⟨fun index stops => ?_, fun none other lower upper => ?_⟩
          · obtain ⟨lower, upper, before⟩ := found index stops
            refine ⟨by omega, by omega, fun other above below => ?_⟩
            exact here above (fun same => same ▸ skipped) fun later => before other later below
          · exact here lower (fun same => same ▸ skipped)
              fun later => missing none other later (by omega)

/-- What the `while` loop of `allocEphemeral` comes to: a port behind the array, the first
that is not in the map, or none because all are. -/
theorem extend_lowest {ports : PortAllocator Socket} (socket : Socket) {count : Nat} :
    ((extend socket count ports).1 = 0 ∧
      (∀ other, ports.sockets.length ≤ other → other < ports.sockets.length + count →
        (ports.mapped (ephemeralPortFirst + other)).isSome) ∧
      (extend socket count ports).2.allocated = ports.allocated ∧
      (extend socket count ports).2.searchStart = ports.searchStart ∧
      ports.sockets.length ≤ (extend socket count ports).2.sockets.length) ∨
    ∃ index, (extend socket count ports).1 = ephemeralPortFirst + index ∧
      ports.sockets.length ≤ index ∧ index < ports.sockets.length + count ∧
      (∀ other, ports.sockets.length ≤ other → other < index →
        (ports.mapped (ephemeralPortFirst + other)).isSome) ∧
      (extend socket count ports).2.allocated = ports.allocated + 1 ∧
      (extend socket count ports).2.searchStart = index + 1 ∧
      (extend socket count ports).2.sockets.length = index + 1 := by
  induction count generalizing ports with
  | zero => exact .inl ⟨rfl, fun other lower upper => by omega, rfl, rfl, Nat.le_refl _⟩
  | succ count ih =>
      unfold extend
      cases taken : ports.mapped (ephemeralPortFirst + ports.sockets.length) with
      | none =>
          refine .inr ⟨ports.sockets.length, rfl, Nat.le_refl _, by omega,
            fun other lower upper => by omega, rfl, rfl, ?_⟩
          exact List.length_append
      | some owner =>
          dsimp only
          have next := @ih { ports with sockets := ports.sockets ++ [none] }
          have length : (ports.sockets ++ [none]).length = ports.sockets.length + 1 :=
            List.length_append
          have here {other : Nat} (lower : ports.sockets.length ≤ other)
              (later : ports.sockets.length + 1 ≤ other →
                (ports.mapped (ephemeralPortFirst + other)).isSome) :
              (ports.mapped (ephemeralPortFirst + other)).isSome := by
            rcases Nat.lt_or_ge ports.sockets.length other with beyond | not_beyond
            · exact later beyond
            · rw [Nat.le_antisymm not_beyond lower, taken]
              rfl
          dsimp only at next
          rw [length] at next
          rcases next with ⟨none, all, allocated, hint, longer⟩ |
            ⟨index, port, lower, upper, all, allocated, hint, longer⟩
          · refine .inl ⟨none, fun other lower upper => here lower fun later => ?_, allocated, hint,
              by omega⟩
            exact all other later (by omega)
          · refine .inr ⟨index, port, by omega, by omega,
              fun other above below => here above fun later => ?_, allocated, hint, longer⟩
            exact all other later below

/-- **`allocEphemeral` gives the lowest free port**, or there is none. -/
theorem allocEphemeral_lowest {ports : PortAllocator Socket} (valid : ports.Valid)
    (hinted : ports.Hinted) (socket : Socket) :
    ((ports.allocEphemeral socket).1 = 0 ∧
      (∀ index < ephemeralPortCount, (ports.lookup (ephemeralPortFirst + index)).isSome) ∧
      (ports.allocEphemeral socket).2.allocated = ports.allocated ∧
      (ports.allocEphemeral socket).2.searchStart = ports.searchStart ∧
      ports.sockets.length ≤ (ports.allocEphemeral socket).2.sockets.length) ∨
    ∃ index, (ports.allocEphemeral socket).1 = ephemeralPortFirst + index ∧
      index < ephemeralPortCount ∧
      (∀ other < index, (ports.lookup (ephemeralPortFirst + other)).isSome) ∧
      (ports.allocEphemeral socket).2.allocated = ports.allocated + 1 ∧
      (ports.allocEphemeral socket).2.searchStart = index + 1 ∧
      index + 1 ≤ (ports.allocEphemeral socket).2.sockets.length := by
  have inside := hinted.inside
  have bounded := valid.bounded
  obtain ⟨found, missing⟩ := @freeSlot_lowest Socket ports
    (ports.sockets.length - ports.searchStart) ports.searchStart
  unfold allocEphemeral
  cases search : ports.freeSlot (ports.sockets.length - ports.searchStart) ports.searchStart with
  | some index =>
      obtain ⟨lower, upper, passed⟩ := found index search
      refine .inr ⟨index, rfl, by omega, fun other below => ?_, rfl, rfl, ?_⟩
      · rcases Nat.lt_or_ge other ports.searchStart with before | later
        · exact hinted.taken other before
        · exact taken_of_passed (by omega) bounded (passed other later below)
      · change index + 1 ≤ (ports.sockets.set index (some socket)).length
        rw [List.length_set]
        omega
  | none =>
      have inArray (other : Nat) (below : other < ports.sockets.length) :
          (ports.lookup (ephemeralPortFirst + other)).isSome := by
        rcases Nat.lt_or_ge other ports.searchStart with before | later
        · exact hinted.taken other before
        · exact taken_of_passed below bounded (missing search other later (by omega))
      dsimp only
      rcases @extend_lowest Socket ports socket (ephemeralPortCount - ports.sockets.length) with
        ⟨zero, all, allocated, hint, longer⟩ |
        ⟨index, port, lower, upper, all, allocated, hint, longer⟩
      · refine .inl ⟨zero, fun index below => ?_, allocated, hint, longer⟩
        rcases Nat.lt_or_ge index ports.sockets.length with inside | beyond
        · exact inArray index inside
        · exact isSome_lookup_of_mapped (all index beyond (by omega))
      · refine .inr ⟨index, port, by omega, fun other below => ?_, allocated, hint, by omega⟩
        rcases Nat.lt_or_ge other ports.sockets.length with inside | beyond
        · exact inArray other inside
        · exact isSome_lookup_of_mapped (all other beyond below)

/-! ## Freeing a port -/

/-- A free port is left alone; a port in use is given back, and the search hint is not above
it afterwards. -/
theorem free_cases {ports after : PortAllocator Socket} (valid : ports.Valid)
    (hinted : ports.Hinted) {port : Nat} (frees : ports.free port = some after) :
    (ports.lookup port = none ∧ after = ports) ∨
    ((ports.lookup port).isSome ∧ after.allocated = ports.allocated - 1 ∧
      after.searchStart ≤ after.sockets.length ∧
      ∀ index < after.searchStart, index < ports.searchStart ∧
        ephemeralPortFirst + index ≠ port) := by
  have inside := hinted.inside
  have bounded := valid.bounded
  unfold free at frees
  split at frees
  · dsimp only at frees
    split at frees
    · next mapped =>
        cases frees
        refine .inr ⟨isSome_lookup_of_mapped mapped, rfl, ?_, fun index below => ?_⟩
        · dsimp only
          split <;> omega
        · dsimp only at below
          split at below
          · omega
          · next outside =>
              rw [isEphemeralRange_iff] at outside
              exact ⟨below, fun same => outside (by omega)⟩
    · next unmapped =>
        rw [Option.not_isSome_iff_eq_none] at unmapped
        split at frees
        · next taken =>
            cases frees
            obtain ⟨range, slot⟩ := taken
            have lower := ((isEphemeralRange_iff port).mp range).1
            refine .inr ⟨?_, ?_, ?_, fun index below => ?_⟩
            · rw [lookup_of_not_mapped unmapped, if_pos range]
              exact slot
            · unfold freeSlotAt
              dsimp only
              split <;> rfl
            · unfold freeSlotAt
              dsimp only
              split
              · exact Nat.le_refl 0
              · dsimp only
                rw [List.length_set]
                omega
            · unfold freeSlotAt at below
              dsimp only at below
              split at below
              · exact absurd below (Nat.not_lt_zero index)
              · dsimp only at below
                omega
        · next empty =>
            cases frees
            refine .inl ⟨?_, rfl⟩
            rw [lookup_of_not_mapped unmapped]
            split
            · next range =>
                rw [not_and, Option.not_isSome_iff_eq_none] at empty
                exact empty range
            · rfl
  · cases frees

/-! ## The refinement -/

/-- The allocator represents the map. -/
structure Represents (ports : PortAllocator Socket) (map : PortMap Socket) : Prop where
  valid : ports.Valid
  hinted : ports.Hinted
  lookup : ∀ port, ports.lookup port = map.socket port
  counted : ports.allocated = map.count

theorem represents_new : Represents ({} : PortAllocator Socket) PortMap.empty where
  valid := valid_new
  hinted := ⟨Nat.le_refl 0, fun index below => absurd below (Nat.not_lt_zero index)⟩
  lookup := lookup_new
  counted := by
    have none : (PortMap.empty : PortMap Socket).inUse = ∅ :=
      Finset.eq_empty_of_forall_notMem fun port member =>
        Bool.false_ne_true (PortMap.mem_inUse.mp member)
    rw [PortMap.count, none]
    rfl

/-- A port that was free is assigned. -/
theorem Represents.assign {ports after : PortAllocator Socket} {map : PortMap Socket}
    (represents : Represents ports map) {port : Nat} {socket : Socket} (valid : after.Valid)
    (isPort : Net.isPort port) (free : ports.lookup port = none)
    (changed : ∀ other, after.lookup other = if other = port then some socket else
      ports.lookup other)
    (allocated : after.allocated = ports.allocated + 1) (hinted : after.Hinted) :
    Represents after (map.assign port isPort socket) where
  valid := valid
  hinted := hinted
  lookup other := by
    rw [changed, represents.lookup]
    rfl
  counted := by
    rw [PortMap.count_assign ((represents.lookup port).symm.trans free), allocated,
      represents.counted]
    rfl

theorem Represents.allocEphemeral {ports : PortAllocator Socket} {map : PortMap Socket}
    (represents : Represents ports map) (socket : Socket) :
    (ports.operate (.allocEphemeral socket)).2 = (map.operate (.allocEphemeral socket)).2 ∧
      Represents (ports.operate (.allocEphemeral socket)).1
        (map.operate (.allocEphemeral socket)).1 := by
  obtain ⟨valid, assigns⟩ := represents.valid.allocEphemeral socket
  unfold operate PortMap.operate
  dsimp only
  rcases allocEphemeral_lowest represents.valid represents.hinted socket with
    ⟨zero, full, allocated, hint, longer⟩ |
    ⟨index, port, below, before, allocated, hint, inside⟩
  · have none : map.freeEphemeral = ∅ := by
      refine Set.eq_empty_of_forall_notMem fun port free => ?_
      obtain ⟨range, empty⟩ := free
      obtain ⟨lower, upper⟩ := (isEphemeralRange_iff port).mp range
      have taken := full (port - ephemeralPortFirst) (by omega)
      rw [Nat.add_sub_cancel' lower, represents.lookup, empty] at taken
      cases taken
    rw [none, Nat.sInf_empty, dif_neg (by decide), zero]
    refine ⟨rfl, valid, ⟨?_, ?_⟩, ?_, allocated.trans represents.counted⟩
    · rw [hint]
      exact represents.hinted.inside.trans longer
    · rw [zero] at assigns
      cases assigns with
      | none _ same =>
          rw [hint]
          intro other below
          rw [same]
          exact represents.hinted.taken other below
      | port isPort => cases isPort
    · rw [zero] at assigns
      cases assigns with
      | none _ same => exact fun other => (same other).trans (represents.lookup other)
      | port isPort => cases isPort
  · rw [port] at assigns ⊢
    cases assigns with
    | none zero => exact absurd zero (by rw [ephemeralPortFirst]; omega)
    | port isPort free changed =>
        have least : IsLeast map.freeEphemeral (ephemeralPortFirst + index) := by
          refine ⟨⟨isEphemeralRange_add below, (represents.lookup _).symm.trans free⟩,
            fun other member => ?_⟩
          obtain ⟨range, empty⟩ := member
          obtain ⟨lower, -⟩ := (isEphemeralRange_iff other).mp range
          by_contra smaller
          have taken := before (other - ephemeralPortFirst) (by omega)
          rw [Nat.add_sub_cancel' lower, represents.lookup, empty] at taken
          cases taken
        have lowest : sInf map.freeEphemeral = ephemeralPortFirst + index :=
          Nat.le_antisymm (Nat.sInf_le least.1) (least.2 (Nat.sInf_mem ⟨_, least.1⟩))
        have isPort' : Net.isPort (sInf map.freeEphemeral) := lowest.symm ▸ isPort
        rw [dif_pos isPort']
        refine ⟨congrArg PortResult.port lowest.symm, ?_⟩
        have assigned := @Represents.assign Socket ports _ map represents _ socket valid isPort' (lowest ▸ free)
          (lowest.symm ▸ changed) allocated
        refine assigned ⟨hint ▸ inside, fun other smaller => ?_⟩
        rw [hint] at smaller
        rw [changed]
        split
        · rfl
        · next different =>
            refine before other ?_
            omega

theorem Represents.allocPort {ports : PortAllocator Socket} {map : PortMap Socket}
    (represents : Represents ports map) (port : Nat) (socket : Socket) :
    (ports.operate (.allocPort port socket)).2 = (map.operate (.allocPort port socket)).2 ∧
      Represents (ports.operate (.allocPort port socket)).1
        (map.operate (.allocPort port socket)).1 := by
  cases allocates : ports.allocPort port socket with
  | none =>
      have invalid : ¬ Net.isPort port := by
        intro isPort
        rw [PortAllocator.allocPort, if_pos isPort] at allocates
        split at allocates <;> cases allocates
      unfold operate PortMap.operate
      dsimp only
      rw [allocates, dif_neg invalid]
      exact ⟨rfl, represents⟩
  | some result =>
      have isPort : Net.isPort port := by
        by_contra invalid
        rw [PortAllocator.allocPort, if_neg invalid] at allocates
        cases allocates
      obtain ⟨success, after⟩ := result
      unfold operate PortMap.operate
      dsimp only
      rw [allocates, dif_pos isPort, ← represents.lookup]
      dsimp only
      have outcome := allocates
      rw [PortAllocator.allocPort, if_pos isPort] at outcome
      split at outcome
      · next taken =>
          cases outcome
          rw [if_pos taken]
          exact ⟨rfl, represents⟩
      · next free =>
          cases outcome
          rw [if_neg free]
          rw [Option.not_isSome_iff_eq_none] at free
          obtain ⟨valid, assigns⟩ := represents.valid.allocPort allocates
          cases assigns with
          | none zero =>
              rw [zero] at isPort
              cases isPort
          | port _ _ changed =>
              refine ⟨rfl, represents.assign valid isPort free changed rfl
                ⟨represents.hinted.inside, fun index below => ?_⟩⟩
              rw [changed]
              split
              · rfl
              · exact represents.hinted.taken index below

theorem Represents.free {ports : PortAllocator Socket} {map : PortMap Socket}
    (represents : Represents ports map) (port : Nat) :
    (ports.operate (.free port)).2 = (map.operate (.free port)).2 ∧
      Represents (ports.operate (.free port)).1 (map.operate (.free port)).1 := by
  unfold operate PortMap.operate
  dsimp only
  cases frees : ports.free port with
  | none =>
      have invalid : ¬ Net.isPort port := by
        intro isPort
        rw [PortAllocator.free, if_pos isPort] at frees
        dsimp only at frees
        split at frees
        · cases frees
        · split at frees <;> cases frees
      rw [if_neg invalid]
      exact ⟨rfl, represents⟩
  | some after =>
      have isPort : Net.isPort port := by
        by_contra invalid
        rw [PortAllocator.free, if_neg invalid] at frees
        cases frees
      rw [if_pos isPort]
      refine ⟨rfl, ?_⟩
      dsimp only
      obtain ⟨valid, lookup⟩ := represents.valid.free frees
      rcases free_cases represents.valid represents.hinted frees with
        ⟨free, rfl⟩ | ⟨taken, allocated, inside, below⟩
      · rw [PortMap.release_of_free ((represents.lookup port).symm.trans free)]
        exact represents
      · refine ⟨valid, ⟨inside, fun index smaller => ?_⟩, fun other => ?_, ?_⟩
        · obtain ⟨before, different⟩ := below index smaller
          rw [lookup, if_neg different]
          exact represents.hinted.taken index before
        · rw [lookup, represents.lookup]
          rfl
        · have count : (map.release port).count + 1 = map.count :=
            PortMap.count_release (represents.lookup port ▸ taken)
          rw [allocated, represents.counted]
          omega

/-- **The allocator simulates the map**, operation by operation. -/
theorem simulates_map : Refinement.Simulates (@operate Socket) PortMap.operate Represents := by
  have each {ports : PortAllocator Socket} {map : PortMap Socket}
      (represents : Represents ports map) (operation : PortOperation Socket) :
      (ports.operate operation).2 = (map.operate operation).2 ∧
        Represents (ports.operate operation).1 (map.operate operation).1 := by
    cases operation with
    | allocEphemeral socket => exact represents.allocEphemeral socket
    | allocPort port socket => exact represents.allocPort port socket
    | free port => exact represents.free port
    | lookup port => exact ⟨congrArg PortResult.found (represents.lookup port), represents⟩
    | allocatedCount => exact ⟨congrArg PortResult.count represents.counted, represents⟩
  exact ⟨fun represents operation => (each represents operation).1,
    fun represents operation => (each represents operation).2⟩

/-- **The allocator refines a partial map.** Whatever the operations, all results are those
of the map, and so are the answers of `lookup` and the counter at the end. -/
theorem refines_map (operations : List (PortOperation Socket)) :
    Refinement.outputs operate ({} : PortAllocator Socket) operations =
        Refinement.outputs PortMap.operate PortMap.empty operations ∧
      (∀ port, (Refinement.final operate ({} : PortAllocator Socket) operations).lookup port =
        (Refinement.final PortMap.operate PortMap.empty operations).socket port) ∧
      (Refinement.final operate ({} : PortAllocator Socket) operations).allocated =
        (Refinement.final PortMap.operate PortMap.empty operations).count := by
  have final := simulates_map.final represents_new operations
  exact ⟨simulates_map.outputs represents_new operations, final.lookup, final.counted⟩

end PortAllocator

end JsOS.Net
