import Mathlib.Data.BitVec

/-! # The memory map

The boot loader leaves a list of memory regions, of which those of type 1 are available.
`MultibootMemoryMapEnumerator` walks through it: each entry says how far away the next
one is, and the walk ends at the end of the map.
-/

namespace JsOS.Kernel

/-- The fields of a `MultibootMemoryMapEntry`. -/
structure MemoryMapEntry where
  size : BitVec 32
  base_addr : BitVec 64
  length : BitVec 64
  type : BitVec 32
  deriving DecidableEq, Repr

/-- A `MemoryZone`. -/
structure MemoryZone where
  ptr : BitVec 64
  size : BitVec 64
  deriving DecidableEq, Repr

/-- `empty`. -/
def MemoryZone.empty (zone : MemoryZone) : Bool := zone.ptr = 0 && zone.size = 0

/-- A memory map: what is read as an entry at each address, and where the map lies. -/
structure MemoryMap where
  entryAt : BitVec 32 → MemoryMapEntry
  start : BitVec 32
  len : BitVec 32

namespace MemoryMap

/-- `NextAvailableMemory` from the address of the enumerator on, with the address after it.
Without a result the assertion on the size has failed, or it takes more calls. -/
def nextAvailableMemory (map : MemoryMap) : (calls : Nat) → (current : BitVec 32) →
    Option (MemoryZone × BitVec 32)
  | 0, _ => none
  | calls + 1, current =>
      if map.start + map.len ≤ current then some (⟨0, 0⟩, current)
      else
        let entry := map.entryAt current
        if entry.size = 0 then none
        else
          let current := current + (entry.size + 4)
          if entry.type ≠ 1 then nextAvailableMemory map calls current
          else some (⟨entry.base_addr, entry.length⟩, current)

/-- The entries from an address to the end of the map. -/
def Lists (map : MemoryMap) : (current : BitVec 32) → List MemoryMapEntry → Prop
  | current, [] => map.start + map.len ≤ current
  | current, entry :: entries =>
      current < map.start + map.len ∧ map.entryAt current = entry ∧ entry.size ≠ 0 ∧
        Lists map (current + (entry.size + 4)) entries

/-- The zones that are available. -/
def available (entries : List MemoryMapEntry) : List MemoryZone :=
  (entries.filter fun entry => entry.type = 1).map fun entry => ⟨entry.base_addr, entry.length⟩

/-- **The enumerator gives the available zones one by one**, and then the empty one. -/
theorem Lists.next {map : MemoryMap} {current : BitVec 32} {entries : List MemoryMapEntry}
    (lists : map.Lists current entries) :
    (available entries = [] ∧ ∃ after, ∀ calls, entries.length < calls →
      map.nextAvailableMemory calls current = some (⟨0, 0⟩, after)) ∨
    ∃ zone after rest, available entries = zone :: available rest ∧
      (∀ calls, entries.length < calls →
        map.nextAvailableMemory calls current = some (zone, after)) ∧
      map.Lists after rest ∧ rest.length < entries.length := by
  induction entries generalizing current with
  | nil =>
      have past : map.start + map.len ≤ current := lists
      refine .inl ⟨rfl, current, fun calls enough => ?_⟩
      obtain ⟨calls, rfl⟩ := Nat.exists_eq_add_one_of_ne_zero (Nat.ne_of_gt enough)
      rw [nextAvailableMemory, if_pos past]
  | cons entry entries ih =>
      obtain ⟨before, rfl, sized, rest⟩ := lists
      have calls_succ {calls : Nat} (enough : (map.entryAt current :: entries).length < calls) :
          ∃ fewer, calls = fewer + 1 ∧ entries.length < fewer := by
        obtain ⟨fewer, rfl⟩ :=
          Nat.exists_eq_add_one_of_ne_zero (Nat.ne_of_gt (Nat.zero_lt_of_lt enough))
        exact ⟨fewer, rfl, Nat.lt_of_succ_lt_succ enough⟩
      by_cases usable : (map.entryAt current).type = 1
      · refine .inr ⟨⟨(map.entryAt current).base_addr, (map.entryAt current).length⟩, _, entries, ?_,
          fun calls enough => ?_, rest, Nat.lt_succ_self _⟩
        · simp only [available, List.filter_cons, usable, decide_true, if_true, List.map_cons]
        · obtain ⟨calls, rfl, -⟩ := calls_succ enough
          rw [nextAvailableMemory, if_neg (BitVec.not_le.mpr before)]
          dsimp only
          rw [if_neg sized, if_neg (not_not_intro usable)]
      · have skipped : available (map.entryAt current :: entries) = available entries := by
          simp only [available, List.filter_cons, usable, decide_false, Bool.false_eq_true, if_false]
        have next {calls : Nat} : map.nextAvailableMemory (calls + 1) current =
            map.nextAvailableMemory calls (current + ((map.entryAt current).size + 4)) := by
          rw [nextAvailableMemory, if_neg (BitVec.not_le.mpr before)]
          dsimp only
          rw [if_neg sized, if_pos usable]
        rw [skipped]
        rcases ih rest with ⟨none, after, ends⟩ | ⟨zone, after, later, found, finds, lists, shorter⟩
        · refine .inl ⟨none, after, fun calls enough => ?_⟩
          obtain ⟨calls, rfl, fewer⟩ := calls_succ enough
          exact next.trans (ends calls fewer)
        · refine .inr ⟨zone, after, later, found, fun calls enough => ?_, lists,
            Nat.lt_succ_of_lt shorter⟩
          obtain ⟨calls, rfl, fewer⟩ := calls_succ enough
          exact next.trans (finds calls fewer)

end MemoryMap

end JsOS.Kernel
