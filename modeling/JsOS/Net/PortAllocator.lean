import Mathlib.Data.List.AList

/-! # The port allocator

`PortAllocator` hands out ports to sockets. Ephemeral ports are slots of an array
that grows as needed; ports asked for by number are kept in a map. The allocator is
seen from outside through `lookup`: each operation changes the answer for one port at
most (`Assigns`, `lookup_free`).
-/

namespace JsOS.Net

/-- `portUtils.isPort`. -/
def isPort (port : Nat) : Bool := port < 65536 && port ≠ 0

theorem isPort_iff (port : Nat) : isPort port ↔ 0 < port ∧ port < 65536 := by
  rw [isPort, Bool.and_eq_true, decide_eq_true_iff, decide_eq_true_iff, Nat.pos_iff_ne_zero,
    and_comm]

/-- `EPHEMERAL_PORT_FIRST`. -/
def ephemeralPortFirst : Nat := 49152

/-- `EPHEMERAL_PORT_COUNT`. -/
def ephemeralPortCount : Nat := 16000

/-- A `PortAllocator`. The slots of `_sockets` hold `null` or a socket; `_map` is
`null` until a port is first asked for by number. -/
structure PortAllocator (Socket : Type) where
  searchStart : Nat := 0
  allocated : Int := 0
  sockets : List (Option Socket) := []
  map : Option (AList fun _ : Nat => Socket) := none

namespace PortAllocator

variable {Socket : Type}

/-- `isEphemeralRange`. -/
def isEphemeralRange (port : Nat) : Bool :=
  ephemeralPortFirst ≤ port && port < ephemeralPortFirst + ephemeralPortCount

theorem isEphemeralRange_iff (port : Nat) : isEphemeralRange port ↔
    ephemeralPortFirst ≤ port ∧ port < ephemeralPortFirst + ephemeralPortCount := by
  rw [isEphemeralRange, Bool.and_eq_true, decide_eq_true_iff, decide_eq_true_iff]

/-- The socket `_map` holds for a port. -/
def mapped (ports : PortAllocator Socket) (port : Nat) : Option Socket :=
  ports.map.bind fun map => map.lookup port

/-- The socket in a slot of `_sockets`. -/
def slot (ports : PortAllocator Socket) (index : Nat) : Option Socket :=
  ports.sockets[index]?.join

/-- `lookup`. -/
def lookup (ports : PortAllocator Socket) (port : Nat) : Option Socket :=
  match ports.mapped port with
  | some socket => some socket
  | none => if isEphemeralRange port then ports.slot (port - ephemeralPortFirst) else none

/-- The `for` loop of `allocEphemeral` over `count` slots from `index` on: the first
slot that is free and whose port is not in the map. -/
def freeSlot (ports : PortAllocator Socket) : (count index : Nat) → Option Nat
  | 0, _ => none
  | count + 1, index =>
      match ports.sockets[index]?, ports.mapped (ephemeralPortFirst + index) with
      | some none, none => some index
      | _, _ => freeSlot ports count (index + 1)

/-- The `while` loop of `allocEphemeral`, which may add `count` slots. -/
def extend (socket : Socket) : (count : Nat) → PortAllocator Socket → Nat × PortAllocator Socket
  | 0, ports => (0, ports)
  | count + 1, ports =>
      match ports.mapped (ephemeralPortFirst + ports.sockets.length) with
      | some _ => extend socket count { ports with sockets := ports.sockets ++ [none] }
      | none =>
          (ephemeralPortFirst + ports.sockets.length,
            { ports with
              sockets := ports.sockets ++ [some socket]
              allocated := ports.allocated + 1
              searchStart := ports.sockets.length + 1 })

/-- `allocEphemeral`; the number is its result, `0` when there is no port left. -/
def allocEphemeral (socket : Socket) (ports : PortAllocator Socket) :
    Nat × PortAllocator Socket :=
  match ports.freeSlot (ports.sockets.length - ports.searchStart) ports.searchStart with
  | some index =>
      (ephemeralPortFirst + index,
        { ports with
          sockets := ports.sockets.set index (some socket)
          allocated := ports.allocated + 1
          searchStart := index + 1 })
  | none => extend socket (ephemeralPortCount - ports.sockets.length) ports

/-- `allocPort`; `none` when the assertion fails, otherwise with its result. -/
def allocPort (port : Nat) (socket : Socket) (ports : PortAllocator Socket) :
    Option (Bool × PortAllocator Socket) :=
  if isPort port then
    if (ports.lookup port).isSome then some (false, ports)
    else
      some (true, { ports with
        map := some ((ports.map.getD ∅).insert port socket)
        allocated := ports.allocated + 1 })
  else none

/-- Empty a slot, and the whole array with the last socket. -/
def freeSlotAt (ports : PortAllocator Socket) (index : Nat) : PortAllocator Socket :=
  let allocated := ports.allocated - 1
  if allocated = 0 then { ports with sockets := [], searchStart := 0, allocated }
  else
    { ports with
      sockets := ports.sockets.set index none
      searchStart := min index ports.searchStart
      allocated }

/-- `free`; `none` when the assertion fails. -/
def free (port : Nat) (ports : PortAllocator Socket) : Option (PortAllocator Socket) :=
  if isPort port then
    let index := port - ephemeralPortFirst
    if (ports.mapped port).isSome then
      some { ports with
        map := ports.map.map fun map => map.erase port
        allocated := ports.allocated - 1
        searchStart :=
          if isEphemeralRange port then min index ports.searchStart else ports.searchStart }
    else if isEphemeralRange port ∧ (ports.slot index).isSome then some (ports.freeSlotAt index)
    else some ports
  else none

/-! ## What `lookup` answers -/

/-- How many ports are in the map. -/
def mapSize (ports : PortAllocator Socket) : Nat :=
  ports.map.elim 0 fun map => map.entries.length

/-- `_allocated` counts the map and the taken slots, and no port is in both. -/
structure Valid (ports : PortAllocator Socket) : Prop where
  counted : ports.allocated = ports.mapSize + ports.sockets.countP Option.isSome
  bounded : ports.sockets.length ≤ ephemeralPortCount
  mapped_isPort : ∀ port, (ports.mapped port).isSome → isPort port
  exclusive : ∀ index, (ports.mapped (ephemeralPortFirst + index)).isSome →
    ports.slot index = none

theorem valid_new : Valid ({} : PortAllocator Socket) :=
  ⟨rfl, Nat.zero_le _, fun _ present => (Bool.false_ne_true present).elim,
    fun _ present => (Bool.false_ne_true present).elim⟩

/-- The socket has got the port, which was free, and no other port changed hands; or
there was no port to give. -/
inductive Assigns (ports : PortAllocator Socket) (socket : Socket) (port : Nat)
    (after : PortAllocator Socket) : Prop where
  | none (zero : port = 0) (same : ∀ other, after.lookup other = ports.lookup other)
  | port (isPort : isPort port) (free : ports.lookup port = none)
      (changed : ∀ other,
        after.lookup other = if other = port then some socket else ports.lookup other)

theorem lookup_of_mapped {ports : PortAllocator Socket} {port : Nat} {socket : Socket}
    (present : ports.mapped port = some socket) : ports.lookup port = some socket := by
  rw [lookup, present]

theorem lookup_of_not_mapped {ports : PortAllocator Socket} {port : Nat}
    (absent : ports.mapped port = none) :
    ports.lookup port =
      if isEphemeralRange port then ports.slot (port - ephemeralPortFirst) else none := by
  rw [lookup, absent]

theorem mapped_eq_none_of_lookup {ports : PortAllocator Socket} {port : Nat}
    (free : ports.lookup port = none) : ports.mapped port = none := by
  cases present : ports.mapped port with
  | none => rfl
  | some socket =>
      rw [lookup_of_mapped present] at free
      cases free

/-- A new allocator has no port in use. -/
theorem lookup_new (port : Nat) : ({} : PortAllocator Socket).lookup port = none := by
  unfold lookup mapped slot
  split
  · next found => cases found
  · split <;> rfl

/-- The answer depends on the map and on the slots. -/
theorem lookup_congr {ports after : PortAllocator Socket} {port : Nat}
    (mapped : after.mapped port = ports.mapped port)
    (slot : ∀ index, port = ephemeralPortFirst + index → after.slot index = ports.slot index) :
    after.lookup port = ports.lookup port := by
  unfold lookup
  rw [mapped]
  cases ports.mapped port with
  | some socket => rfl
  | none =>
      dsimp only
      split
      · next range =>
          exact slot _ (Nat.add_sub_cancel' ((isEphemeralRange_iff port).mp range).1).symm
      · rfl

/-- A port is only found if it is one. -/
theorem Valid.isPort_of_lookup {ports : PortAllocator Socket} (valid : ports.Valid) {port : Nat}
    {socket : Socket} (found : ports.lookup port = some socket) : isPort port := by
  cases present : ports.mapped port with
  | some owner => exact valid.mapped_isPort port (by rw [present]; rfl)
  | none =>
      rw [lookup_of_not_mapped present] at found
      obtain ⟨range, -⟩ := Option.ite_none_right_eq_some.mp found
      rw [isEphemeralRange_iff, ephemeralPortFirst, ephemeralPortCount] at range
      rw [isPort_iff]
      omega

theorem isEphemeralRange_add {index : Nat} (below : index < ephemeralPortCount) :
    isEphemeralRange (ephemeralPortFirst + index) := by
  rw [isEphemeralRange_iff]
  omega

theorem isPort_add {index : Nat} (below : index < ephemeralPortCount) :
    isPort (ephemeralPortFirst + index) := by
  rw [ephemeralPortCount] at below
  rw [isPort_iff, ephemeralPortFirst]
  omega

/-! ## Ephemeral ports -/

theorem freeSlot_spec {ports : PortAllocator Socket} {count first index : Nat}
    (found : ports.freeSlot count first = some index) :
    ports.sockets[index]? = some none ∧ ports.mapped (ephemeralPortFirst + index) = none := by
  induction count generalizing first with
  | zero => cases found
  | succ count ih =>
      unfold freeSlot at found
      split at found
      · next free unmapped =>
          cases found
          exact ⟨free, unmapped⟩
      · exact ih found

/-- The allocator with a socket in a slot. -/
def fill (ports : PortAllocator Socket) (sockets : List (Option Socket)) (searchStart : Nat) :
    PortAllocator Socket :=
  { ports with sockets, searchStart, allocated := ports.allocated + 1 }

/-- Putting a socket into a free slot, at the end or in the middle, gives it the port. -/
theorem Valid.fill {ports : PortAllocator Socket} (valid : ports.Valid) {socket : Socket}
    {index searchStart : Nat} {sockets : List (Option Socket)}
    (unmapped : ports.mapped (ephemeralPortFirst + index) = none)
    (below : index < ephemeralPortCount) (length : sockets.length ≤ ephemeralPortCount)
    (free : ports.slot index = none)
    (count : sockets.countP Option.isSome = ports.sockets.countP Option.isSome + 1)
    (entries : ∀ other, sockets[other]?.join = if other = index then some socket
      else ports.slot other) :
    (ports.fill sockets searchStart).Valid ∧
      Assigns ports socket (ephemeralPortFirst + index) (ports.fill sockets searchStart) := by
  have slots (other : Nat) : (ports.fill sockets searchStart).slot other =
      if other = index then some socket else ports.slot other := entries other
  have mapped (port : Nat) : (ports.fill sockets searchStart).mapped port = ports.mapped port := rfl
  constructor
  · refine ⟨?_, length, valid.mapped_isPort, fun other present => ?_⟩
    · have counted := valid.counted
      change ports.allocated + 1 = ports.mapSize + sockets.countP Option.isSome
      rw [count, counted]
      omega
    · rw [mapped] at present
      rw [slots, if_neg]
      · exact valid.exclusive other present
      · rintro rfl
        rw [unmapped] at present
        cases present
  · refine .port (isPort_add below) ?_ fun other => ?_
    · rw [lookup_of_not_mapped unmapped, if_pos (isEphemeralRange_add below),
        Nat.add_sub_cancel_left]
      exact free
    · split
      · next same =>
          rw [same, lookup_of_not_mapped ((mapped _).trans unmapped),
            if_pos (isEphemeralRange_add below), Nat.add_sub_cancel_left, slots, if_pos rfl]
      · next different =>
          refine lookup_congr (mapped other) fun position at_ => ?_
          rw [slots, if_neg]
          rintro rfl
          exact different at_

/-- Adding empty slots changes no answer. -/
theorem Valid.pushNull {ports : PortAllocator Socket} (valid : ports.Valid)
    (room : ports.sockets.length < ephemeralPortCount) :
    let after := { ports with sockets := ports.sockets ++ [none] }
    after.Valid ∧ ∀ port, after.lookup port = ports.lookup port := by
  intro after
  have slots (index : Nat) : after.slot index = ports.slot index := by
    change (ports.sockets ++ [none])[index]?.join = _
    rw [List.getElem?_append, slot]
    split
    · rfl
    · next beyond =>
        rw [List.getElem?_eq_none (Nat.le_of_not_lt beyond)]
        cases index - ports.sockets.length <;> rfl
  refine ⟨⟨?_, ?_, valid.mapped_isPort, fun index present => ?_⟩, fun port =>
    lookup_congr rfl fun index _ => slots index⟩
  · change ports.allocated = ports.mapSize + (ports.sockets ++ [none]).countP Option.isSome
    rw [List.countP_append, valid.counted]
    rfl
  · change (ports.sockets ++ [none]).length ≤ _
    rw [List.length_append]
    exact room
  · rw [slots]
    exact valid.exclusive index present

theorem Assigns.lookup_other {ports after : PortAllocator Socket} {socket owner : Socket}
    {port : Nat} (assigns : Assigns ports socket port after) (different : owner ≠ socket)
    (other : Nat) : after.lookup other = some owner ↔ ports.lookup other = some owner := by
  cases assigns with
  | none zero same => rw [same]
  | port isPort free changed =>
      rw [changed]
      split
      · next same =>
          rw [same, free]
          exact ⟨fun found => (different (Option.some.inj found).symm).elim, fun none => by cases none⟩
      · exact Iff.rfl

theorem Assigns.lookup_own {ports after : PortAllocator Socket} {socket : Socket} {port : Nat}
    (assigns : Assigns ports socket port after) {other : Nat}
    (found : after.lookup other = some socket) :
    other = port ∨ ports.lookup other = some socket := by
  cases assigns with
  | none zero same => exact .inr ((same other).symm.trans found)
  | port isPort free changed =>
      rw [changed] at found
      split at found
      · next same => exact .inl same
      · exact .inr found

theorem Assigns.after {ports middle after : PortAllocator Socket} {socket : Socket} {port : Nat}
    (same : ∀ other, middle.lookup other = ports.lookup other)
    (assigns : Assigns middle socket port after) : Assigns ports socket port after := by
  cases assigns with
  | none zero unchanged => exact .none zero fun other => (unchanged other).trans (same other)
  | port isPort free changed =>
      refine .port isPort ((same port).symm.trans free) fun other => ?_
      rw [changed, same]

theorem Valid.extend {ports : PortAllocator Socket} (valid : ports.Valid) (socket : Socket)
    {count : Nat} (room : ports.sockets.length + count ≤ ephemeralPortCount) :
    (extend socket count ports).2.Valid ∧
      Assigns ports socket (extend socket count ports).1 (extend socket count ports).2 := by
  induction count generalizing ports with
  | zero => exact ⟨valid, .none rfl fun _ => rfl⟩
  | succ count ih =>
      unfold PortAllocator.extend
      cases taken : ports.mapped (ephemeralPortFirst + ports.sockets.length) with
      | some owner =>
          obtain ⟨pushed, same⟩ := valid.pushNull (by omega)
          obtain ⟨after, assigns⟩ := ih pushed (by
            change (ports.sockets ++ [none]).length + count ≤ _
            rw [List.length_append, List.length_singleton]
            omega)
          exact ⟨after, assigns.after same⟩
      | none =>
          refine valid.fill taken (by omega) ?_ ?_ ?_ fun other => ?_
          · rw [List.length_append, List.length_singleton]
            omega
          · rw [slot, List.getElem?_eq_none (Nat.le_refl _)]
            rfl
          · rw [List.countP_append]
            rfl
          · rw [List.getElem?_append, slot]
            split
            · next below => rw [if_neg (by omega)]
            · next beyond =>
                by_cases same : other = ports.sockets.length
                · rw [if_pos same, same, Nat.sub_self]
                  rfl
                · rw [if_neg same, List.getElem?_eq_none (Nat.le_of_not_lt beyond),
                    List.getElem?_eq_none]
                  rw [List.length_singleton]
                  omega

/-- **`allocEphemeral` gives a free port.** -/
theorem Valid.allocEphemeral {ports : PortAllocator Socket} (valid : ports.Valid)
    (socket : Socket) : (ports.allocEphemeral socket).2.Valid ∧
      Assigns ports socket (ports.allocEphemeral socket).1 (ports.allocEphemeral socket).2 := by
  unfold PortAllocator.allocEphemeral
  cases found : ports.freeSlot (ports.sockets.length - ports.searchStart) ports.searchStart with
  | none =>
      have bounded := valid.bounded
      exact valid.extend socket (by omega)
  | some index =>
      obtain ⟨empty, unmapped⟩ := freeSlot_spec found
      obtain ⟨below, null⟩ := List.getElem?_eq_some_iff.mp empty
      refine valid.fill unmapped (Nat.lt_of_lt_of_le below valid.bounded) ?_ ?_ ?_ fun other => ?_
      · rw [List.length_set]
        exact valid.bounded
      · rw [slot, empty]
        rfl
      · rw [List.countP_set (h := below), null]
        rfl
      · rw [slot, List.getElem?_set]
        split
        · next same =>
            rw [if_pos same.symm]
            rfl
        · next different => rw [if_neg (Ne.symm different)]

/-! ## Ports asked for by number -/

theorem mapped_insert (ports : PortAllocator Socket) (allocated : Int) (port : Nat)
    (socket : Socket) (other : Nat) :
    mapped { ports with map := some ((ports.map.getD ∅).insert port socket), allocated } other =
      if other = port then some socket else ports.mapped other := by
  change ((ports.map.getD ∅).insert port socket).lookup other = _
  split
  · next same =>
      subst same
      exact AList.lookup_insert _
  · next different =>
      rw [AList.lookup_insert_ne different, mapped]
      cases ports.map with
      | none => exact AList.lookup_empty other
      | some map => rfl

/-- **`allocPort` gives a free port**, and refuses one that is taken. -/
theorem Valid.allocPort {ports after : PortAllocator Socket} (valid : ports.Valid)
    {socket : Socket} {port : Nat} (allocates : ports.allocPort port socket = some (true, after)) :
    after.Valid ∧ Assigns ports socket port after := by
  unfold PortAllocator.allocPort at allocates
  split at allocates
  · next isPort =>
      split at allocates
      · cases allocates
      · next free =>
          rw [Option.not_isSome_iff_eq_none] at free
          have unmapped := mapped_eq_none_of_lookup free
          cases allocates
          refine ⟨⟨?_, valid.bounded, fun other present => ?_, fun index present => ?_⟩,
            .port isPort free fun other => ?_⟩
          · have size : (((ports.map.getD ∅).insert port socket).entries.length : Int) =
                ports.mapSize + 1 := by
              cases map : ports.map with
              | none =>
                  rw [mapSize, map]
                  rfl
              | some entries =>
                  rw [mapped, map] at unmapped
                  rw [mapSize, map, Option.getD_some,
                    AList.entries_insert_of_notMem (AList.lookup_eq_none.mp unmapped)]
                  rfl
            change ports.allocated + 1 = (((ports.map.getD ∅).insert port socket).entries.length : Int)
              + ports.sockets.countP Option.isSome
            rw [size, valid.counted]
            omega
          · rw [mapped_insert] at present
            split at present
            · next same => rwa [same]
            · exact valid.mapped_isPort other present
          · rw [mapped_insert] at present
            split at present
            · next same =>
                rw [← same, lookup_of_not_mapped (same ▸ unmapped)] at free
                by_cases range : isEphemeralRange (ephemeralPortFirst + index)
                · rwa [if_pos range, Nat.add_sub_cancel_left] at free
                · have beyond : ports.sockets.length ≤ index := by
                    have bounded := valid.bounded
                    rw [isEphemeralRange_iff] at range
                    omega
                  change ports.sockets[index]?.join = none
                  rw [List.getElem?_eq_none beyond]
                  rfl
            · exact valid.exclusive index present
          · split
            · next same =>
                refine lookup_of_mapped ?_
                rw [mapped_insert, if_pos same]
            · next different =>
                refine lookup_congr ?_ fun _ _ => rfl
                rw [mapped_insert, if_neg different]
  · cases allocates

/-! ## Freeing a port -/

/-- The port is free afterwards, and no other port changed hands. -/
structure Frees (ports : PortAllocator Socket) (port : Nat) (after : PortAllocator Socket) :
    Prop where
  valid : after.Valid
  lookup : ∀ other, after.lookup other = if other = port then none else ports.lookup other

theorem mapped_erase (ports : PortAllocator Socket) (allocated : Int) (searchStart port : Nat)
    (other : Nat) :
    mapped { ports with map := ports.map.map fun map => map.erase port, allocated, searchStart }
      other = if other = port then none else ports.mapped other := by
  change ((ports.map.map fun map => map.erase port).bind fun map => map.lookup other) = _
  rw [mapped]
  cases ports.map with
  | none => exact (ite_self _).symm
  | some map =>
      change (map.erase port).lookup other = _
      split
      · next same =>
          subst same
          exact AList.lookup_erase other map
      · next different => exact AList.lookup_erase_ne different

/-- Taking a port out of the map. -/
theorem Valid.unmap {ports : PortAllocator Socket} (valid : ports.Valid) {port : Nat}
    (present : (ports.mapped port).isSome) (searchStart : Nat) :
    Frees ports port { ports with
      map := ports.map.map fun map => map.erase port
      allocated := ports.allocated - 1
      searchStart } := by
  refine ⟨⟨?_, valid.bounded, fun other remains => ?_, fun index remains => ?_⟩, fun other => ?_⟩
  · have size : (ports.mapSize : Int) - 1 =
        (ports.map.map fun map => map.erase port).elim 0 fun map => map.entries.length := by
      rw [mapped] at present
      rw [mapSize]
      cases map : ports.map with
      | none =>
          rw [map] at present
          cases present
      | some entries =>
          rw [map] at present
          have member : port ∈ entries := AList.lookup_isSome.mp present
          have lengths := congrArg List.length (AList.keys_erase port entries)
          rw [List.length_erase_of_mem (AList.mem_keys.mp member)] at lengths
          have positive := List.length_pos_of_mem (AList.mem_keys.mp member)
          simp only [AList.keys, List.keys, List.length_map] at lengths positive
          simp only [Option.elim_some, Option.map_some, lengths]
          omega
    change ports.allocated - 1 = (((ports.map.map fun map => map.erase port).elim 0 fun map =>
      map.entries.length : Nat) : Int) + ports.sockets.countP Option.isSome
    rw [valid.counted]
    omega
  · rw [mapped_erase] at remains
    split at remains
    · cases remains
    · exact valid.mapped_isPort other remains
  · rw [mapped_erase] at remains
    split at remains
    · cases remains
    · exact valid.exclusive index remains
  · split
    · next same =>
        rw [same, lookup_of_not_mapped (by rw [mapped_erase, if_pos rfl])]
        split
        · next range =>
            have split_ := Nat.add_sub_cancel' ((isEphemeralRange_iff port).mp range).1
            exact valid.exclusive _ (split_.symm ▸ present)
        · rfl
    · next different =>
        refine lookup_congr ?_ fun _ _ => rfl
        rw [mapped_erase, if_neg different]

/-- Emptying a slot. -/
theorem Valid.freeSlotAt {ports : PortAllocator Socket} (valid : ports.Valid) {index : Nat}
    (taken : (ports.slot index).isSome) :
    Frees ports (ephemeralPortFirst + index) (ports.freeSlotAt index) := by
  obtain ⟨socket, slot⟩ := Option.isSome_iff_exists.mp taken
  have below : index < ports.sockets.length := by
    by_contra beyond
    rw [PortAllocator.slot, List.getElem?_eq_none (Nat.le_of_not_lt beyond)] at slot
    cases slot
  have entry : ports.sockets[index] = some socket := by
    rw [PortAllocator.slot, List.getElem?_eq_getElem below] at slot
    exact slot
  have unmapped : ports.mapped (ephemeralPortFirst + index) = none := by
    by_contra present
    rw [valid.exclusive index (Option.isSome_iff_ne_none.mpr present)] at slot
    cases slot
  have counts : (ports.sockets.set index none).countP Option.isSome + 1 =
      ports.sockets.countP Option.isSome := by
    have positive : 0 < ports.sockets.countP Option.isSome :=
      List.countP_pos_iff.mpr ⟨_, List.getElem_mem below, by rw [entry]; rfl⟩
    rw [List.countP_set (h := below), entry]
    simp only [Option.isSome_some, Option.isSome_none, if_true, Bool.false_eq_true, if_false]
    omega
  -- When the last socket goes, all the slots are empty already.
  have others (sockets : List (Option Socket)) (searchStart : Nat)
      (length : sockets.length ≤ ephemeralPortCount)
      (count : (ports.allocated - 1 : Int) = ports.mapSize + sockets.countP Option.isSome)
      (slots : ∀ other, sockets[other]?.join = if other = index then none else ports.slot other) :
      Frees ports (ephemeralPortFirst + index)
        { ports with sockets, searchStart, allocated := ports.allocated - 1 } := by
    refine ⟨⟨count, length, valid.mapped_isPort, fun other present => ?_⟩, fun other => ?_⟩
    · rw [PortAllocator.slot, slots]
      split
      · rfl
      · exact valid.exclusive other present
    · split
      · next same =>
          rw [same, lookup_of_not_mapped (by exact unmapped), Nat.add_sub_cancel_left,
            PortAllocator.slot, slots, if_pos rfl]
          exact ite_self _
      · next different =>
          refine lookup_congr rfl fun position at_ => ?_
          rw [PortAllocator.slot, slots, if_neg]
          rintro rfl
          exact different at_
  have counted := valid.counted
  unfold PortAllocator.freeSlotAt
  dsimp only
  split
  · next last =>
      refine last ▸ others [] 0 (Nat.zero_le _) ?_ fun other => ?_
      · rw [List.countP_nil]
        omega
      · split
        · rfl
        · next different =>
            have empty : (ports.sockets.set index none).countP Option.isSome = 0 := by omega
            rw [List.countP_eq_zero] at empty
            cases at_ : ports.sockets[other]? with
            | none =>
                rw [PortAllocator.slot, at_]
                rfl
            | some value =>
                have member : value ∈ ports.sockets.set index none := by
                  refine List.mem_of_getElem? (i := other) ?_
                  rw [List.getElem?_set_ne (Ne.symm different), at_]
                rw [PortAllocator.slot, at_, Option.not_isSome_iff_eq_none.mp (empty value member)]
                rfl
  · refine others _ _ ?_ (by omega) fun other => ?_
    · rw [List.length_set]
      exact valid.bounded
    · rw [List.getElem?_set, PortAllocator.slot]
      split
      · next same =>
          rw [if_pos same.symm]
          rfl
      · next different => rw [if_neg (Ne.symm different)]

/-- **`free` frees the port** and leaves the others alone. -/
theorem Valid.free {ports after : PortAllocator Socket} (valid : ports.Valid) {port : Nat}
    (frees : ports.free port = some after) : Frees ports port after := by
  unfold PortAllocator.free at frees
  split at frees
  · dsimp only at frees
    split at frees
    · next present =>
        cases frees
        exact valid.unmap present _
    · next absent =>
        rw [Option.not_isSome_iff_eq_none] at absent
        split at frees
        · next taken =>
            cases frees
            have split_ := Nat.add_sub_cancel' ((isEphemeralRange_iff port).mp taken.1).1
            have freed := valid.freeSlotAt taken.2
            rwa [split_] at freed
        · next empty =>
            cases frees
            refine ⟨valid, fun other => ?_⟩
            split
            · next same =>
                rw [same, lookup_of_not_mapped absent]
                split
                · next range =>
                    rw [not_and, Option.not_isSome_iff_eq_none] at empty
                    exact empty range
                · rfl
            · rfl
  · cases frees

end PortAllocator

end JsOS.Net
