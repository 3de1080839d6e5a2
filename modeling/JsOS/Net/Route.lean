import JsOS.Net.Ip4Address

/-! # The routing table

Entries are added at the end and never removed. `lookup` goes through all of them and
keeps the last of the most specific entries that match (`lookup_longest_prefix`).
-/

namespace JsOS.Net.Route

/-- What is passed for a gateway: nothing, `null` or an address. -/
inductive Gateway where
  | undefined
  | null
  | address (ip : IP4Address)
  deriving DecidableEq, Repr

/-- An `Entry` of the table. -/
structure Entry (Interface : Type) where
  ip : IP4Address
  mask : IP4Address
  gateway : Option IP4Address
  intf : Interface
  deriving DecidableEq

/-- The number of ones in the binary representation. -/
def popCount (number : BitVec 32) : Nat :=
  (List.finRange 32).countP fun bit => number[bit]

variable {Interface : Type}

/-- `maskBits` of an entry. -/
def Entry.maskBits (entry : Entry Interface) : Nat := popCount entry.mask.toInteger

/-- The constructor of an entry; `none` when the assertion on the gateway fails. -/
def Entry.new (ip mask : IP4Address) (gateway : Gateway) (intf : Interface) :
    Option (Entry Interface) :=
  match gateway with
  | .undefined => none
  | .null => some ⟨ip, mask, none, intf⟩
  | .address gateway => some ⟨ip, mask, some gateway, intf⟩

/-- `table`. -/
abbrev Table (Interface : Type) := List (Entry Interface)

/-- `addSubnet`; `none` when the constructor throws. -/
def addSubnet (ip mask : IP4Address) (gateway : Gateway) (intf : Interface)
    (table : Table Interface) : Option (Table Interface) :=
  (Entry.new ip mask gateway intf).map fun entry => table ++ [entry]

/-- `addDefault`; `none` when the constructor throws. -/
def addDefault (gateway : Gateway) (intf : Interface) (table : Table Interface) :
    Option (Table Interface) :=
  (Entry.new .ANY .ANY gateway intf).map fun entry => table ++ [entry]

section Lookup

variable [DecidableEq Interface]

/-- The entry is for the interface, if one is asked for, and the address is in its subnet. -/
def Entry.matchesIP (destIP : IP4Address) (intf : Option Interface) (entry : Entry Interface) :
    Bool :=
  intf.all (fun intf => entry.intf = intf) && destIP.and entry.mask = entry.ip

/-- The loop of `lookup`, with the entry found so far and `maxMaskBits`. -/
def lookupLoop (destIP : IP4Address) (intf : Option Interface) (result : Option (Entry Interface))
    (maxMaskBits : Nat) : Table Interface → Option (Entry Interface)
  | [] => result
  | entry :: table =>
      if entry.matchesIP destIP intf && maxMaskBits ≤ entry.maskBits then
        lookupLoop destIP intf (some entry) entry.maskBits table
      else lookupLoop destIP intf result maxMaskBits table

/-- `lookup`. -/
def lookup (table : Table Interface) (destIP : IP4Address) (intf : Option Interface) :
    Option (Entry Interface) :=
  lookupLoop destIP intf none 0 table

/-- The entry stands in the table as the longest match: no entry that matches is more
specific, and every later one is less specific. -/
def Longest (table : Table Interface) (destIP : IP4Address) (intf : Option Interface)
    (entry : Entry Interface) : Prop :=
  entry.matchesIP destIP intf ∧ ∃ earlier later, table = earlier ++ entry :: later ∧
    (∀ other ∈ earlier, other.matchesIP destIP intf → other.maskBits ≤ entry.maskBits) ∧
    ∀ other ∈ later, other.matchesIP destIP intf → other.maskBits < entry.maskBits

/-- An entry in front that is no more specific does not change the longest match. -/
theorem Longest.cons {table : Table Interface} {destIP : IP4Address} {intf : Option Interface}
    {entry : Entry Interface} (longest : Longest table destIP intf entry) (first : Entry Interface)
    (less : first.matchesIP destIP intf → first.maskBits ≤ entry.maskBits) :
    Longest (first :: table) destIP intf entry := by
  obtain ⟨matched, earlier, later, rfl, before, after⟩ := longest
  refine ⟨matched, first :: earlier, later, rfl, fun other present fits => ?_, after⟩
  rcases List.mem_cons.mp present with rfl | rest
  · exact less fits
  · exact before other rest fits

/-- A table has one longest match. -/
theorem Longest.unique {table : Table Interface} {destIP : IP4Address} {intf : Option Interface}
    {first second : Entry Interface} (one : Longest table destIP intf first)
    (two : Longest table destIP intf second) : first = second := by
  obtain ⟨firstMatches, earlier, later, rfl, before, after⟩ := one
  obtain ⟨secondMatches, earlier', later', split, before', after'⟩ := two
  rcases List.append_eq_append_iff.mp split with ⟨gap, rfl, rest⟩ | ⟨gap, rfl, rest⟩
  · cases gap with
    | nil => exact (List.cons.inj rest).1
    | cons between gap =>
        -- The second stands after the first, so it is less specific, and cannot be longest.
        obtain ⟨rfl, rfl⟩ := List.cons.inj rest
        have smaller := after second (List.mem_append_right _ List.mem_cons_self) secondMatches
        have larger := before' first (List.mem_append_right _ List.mem_cons_self) firstMatches
        exact absurd smaller (Nat.not_lt.mpr larger)
  · cases gap with
    | nil => exact (List.cons.inj rest).1.symm
    | cons between gap =>
        obtain ⟨rfl, rfl⟩ := List.cons.inj rest
        have smaller := after' first (List.mem_append_right _ List.mem_cons_self) firstMatches
        have larger := before second (List.mem_append_right _ List.mem_cons_self) secondMatches
        exact absurd smaller (Nat.not_lt.mpr larger)

/-- What the loop finds: the result so far, when all entries that match are less specific,
or the longest match of the table. -/
theorem lookupLoop_spec {destIP : IP4Address} {intf : Option Interface}
    {result : Option (Entry Interface)} {maxMaskBits : Nat} (table : Table Interface) :
    (lookupLoop destIP intf result maxMaskBits table = result ∧
      ∀ entry ∈ table, entry.matchesIP destIP intf → entry.maskBits < maxMaskBits) ∨
    ∃ entry, lookupLoop destIP intf result maxMaskBits table = some entry ∧
      maxMaskBits ≤ entry.maskBits ∧ Longest table destIP intf entry := by
  induction table generalizing result maxMaskBits with
  | nil => exact .inl ⟨rfl, fun entry member => absurd member List.not_mem_nil⟩
  | cons entry table ih =>
      unfold lookupLoop
      split
      · next better =>
          rw [Bool.and_eq_true, decide_eq_true_iff] at better
          obtain ⟨matched, above⟩ := better
          rcases @ih (some entry) entry.maskBits with ⟨kept, smaller⟩ |
            ⟨found, finds, larger, longest⟩
          · exact .inr ⟨entry, kept, above, matched, [], table, rfl,
              fun other member => absurd member List.not_mem_nil, smaller⟩
          · exact .inr ⟨found, finds, above.trans larger, longest.cons entry fun _ => larger⟩
      · next worse =>
          have less (matched : entry.matchesIP destIP intf) : entry.maskBits < maxMaskBits := by
            rw [Bool.and_eq_true, decide_eq_true_iff, not_and, Nat.not_le] at worse
            exact worse matched
          rcases @ih result maxMaskBits with ⟨kept, smaller⟩ | ⟨found, finds, larger, longest⟩
          · refine .inl ⟨kept, fun other present fits => ?_⟩
            rcases List.mem_cons.mp present with rfl | later
            · exact less fits
            · exact smaller other later fits
          · exact .inr ⟨found, finds, larger,
              longest.cons entry fun fits => (Nat.le_of_lt (less fits)).trans larger⟩

/-- `lookup` finds the longest match, or no entry matches. -/
theorem lookup_spec (table : Table Interface) (destIP : IP4Address) (intf : Option Interface) :
    (lookup table destIP intf = none ∧ ∀ entry ∈ table, ¬ entry.matchesIP destIP intf) ∨
    ∃ entry, lookup table destIP intf = some entry ∧ Longest table destIP intf entry := by
  rcases @lookupLoop_spec Interface _ destIP intf none 0 table with ⟨none, smaller⟩ |
    ⟨entry, finds, -, longest⟩
  · exact .inl ⟨none, fun entry member matched =>
      Nat.not_lt_zero _ (smaller entry member matched)⟩
  · exact .inr ⟨entry, finds, longest⟩

theorem lookup_eq_none_iff (table : Table Interface) (destIP : IP4Address)
    (intf : Option Interface) :
    lookup table destIP intf = none ↔ ∀ entry ∈ table, ¬ entry.matchesIP destIP intf := by
  rcases lookup_spec table destIP intf with ⟨nothing, unmatched⟩ | ⟨entry, finds, longest⟩
  · exact iff_of_true nothing unmatched
  · obtain ⟨matched, earlier, later, rfl, -⟩ := longest
    refine iff_of_false ?_ fun unmatched => unmatched entry
      (List.mem_append_right _ List.mem_cons_self) matched
    rw [finds]
    exact Option.some_ne_none entry

theorem lookup_eq_some_iff (table : Table Interface) (destIP : IP4Address)
    (intf : Option Interface) (entry : Entry Interface) :
    lookup table destIP intf = some entry ↔ Longest table destIP intf entry := by
  rcases lookup_spec table destIP intf with ⟨nothing, unmatched⟩ | ⟨found, finds, longest⟩
  · refine iff_of_false (by rw [nothing]; exact (Option.some_ne_none entry).symm) fun longest => ?_
    obtain ⟨matched, earlier, later, rfl, -⟩ := longest
    exact unmatched entry (List.mem_append_right _ List.mem_cons_self) matched
  · rw [finds, Option.some_inj]
    constructor
    · rintro rfl
      exact longest
    · exact longest.unique

/-! ## Tables that calls have made -/

/-- A call that adds to the table. -/
inductive Call (Interface : Type) where
  | addSubnet (ip mask : IP4Address) (gateway : Gateway) (intf : Interface)
  | addDefault (gateway : Gateway) (intf : Interface)

/-- The table after a call, which stays as it is when the constructor throws. -/
def Call.run (table : Table Interface) : Call Interface → Table Interface
  | .addSubnet ip mask gateway intf => (Route.addSubnet ip mask gateway intf table).getD table
  | .addDefault gateway intf => (Route.addDefault gateway intf table).getD table

/-- The entry that a call adds, if it does not throw. -/
def Call.entry : Call Interface → Option (Entry Interface)
  | .addSubnet ip mask gateway intf => Entry.new ip mask gateway intf
  | .addDefault gateway intf => Entry.new .ANY .ANY gateway intf

omit [DecidableEq Interface] in
theorem Call.run_eq (table : Table Interface) (call : Call Interface) :
    call.run table = table ++ call.entry.toList := by
  have added (entry : Option (Entry Interface)) :
      (entry.map fun entry => table ++ [entry]).getD table = table ++ entry.toList := by
    cases entry with
    | none => exact (List.append_nil table).symm
    | some entry => rfl
  cases call with
  | addSubnet ip mask gateway intf => exact added (Entry.new ip mask gateway intf)
  | addDefault gateway intf => exact added (Entry.new .ANY .ANY gateway intf)

omit [DecidableEq Interface] in
/-- The table holds the entries of all calls, in the order of the calls. -/
theorem foldl_run (calls : List (Call Interface)) (table : Table Interface) :
    calls.foldl Call.run table = table ++ calls.filterMap Call.entry := by
  induction calls generalizing table with
  | nil => exact (List.append_nil table).symm
  | cons call calls ih =>
      rw [List.foldl_cons, ih, Call.run_eq, List.append_assoc, List.filterMap_cons]
      cases call.entry with
      | none => rfl
      | some entry => rfl

/-- An entry is the longest match of a table exactly if one of the calls added it, no entry
of an earlier call that matches is more specific, and those of later calls are less so. -/
theorem longest_filterMap_iff (calls : List (Call Interface)) (destIP : IP4Address)
    (intf : Option Interface) (entry : Entry Interface) :
    Longest (calls.filterMap Call.entry) destIP intf entry ↔
      entry.matchesIP destIP intf ∧ ∃ earlier call later, calls = earlier ++ call :: later ∧
        call.entry = some entry ∧
        (∀ other ∈ earlier.filterMap Call.entry,
          other.matchesIP destIP intf → other.maskBits ≤ entry.maskBits) ∧
        ∀ other ∈ later.filterMap Call.entry,
          other.matchesIP destIP intf → other.maskBits < entry.maskBits := by
  constructor
  · rintro ⟨matched, before, after, split, smaller, strictly⟩
    obtain ⟨earlier, rest, rfl, rfl, restSplit⟩ := List.filterMap_eq_append_iff.mp split
    obtain ⟨silent, call, later, rfl, none, adds, rfl⟩ := List.filterMap_eq_cons_iff.mp restSplit
    refine ⟨matched, earlier ++ silent, call, later, ?_, adds, ?_, strictly⟩
    · rw [List.append_assoc]
    · rw [List.filterMap_append, List.filterMap_eq_nil_iff.mpr none, List.append_nil]
      exact smaller
  · rintro ⟨matched, earlier, call, later, rfl, adds, smaller, strictly⟩
    refine ⟨matched, _, _, ?_, smaller, strictly⟩
    rw [List.filterMap_append, List.filterMap_cons_some adds]

/-- An entry matches if it is for the interface asked for and the masked address is its
own. -/
theorem Entry.matchesIP_iff (destIP : IP4Address) (intf : Option Interface)
    (entry : Entry Interface) :
    entry.matchesIP destIP intf ↔
      (∀ wanted, intf = some wanted → entry.intf = wanted) ∧ destIP.and entry.mask = entry.ip := by
  unfold Entry.matchesIP
  rw [Bool.and_eq_true, decide_eq_true_iff, Option.all_eq_true]
  simp only [decide_eq_true_eq]

/-- **Routing is longest-prefix match.** After any sequence of calls, `lookup` finds nothing
exactly if no entry that was added matches, and otherwise the entry that matches with the
largest number of mask bits and was added last among those. -/
theorem lookup_longest_prefix (calls : List (Call Interface)) (destIP : IP4Address)
    (intf : Option Interface) :
    (lookup (calls.foldl Call.run []) destIP intf = none ↔
      ∀ call ∈ calls, ∀ entry, call.entry = some entry → ¬
        ((∀ wanted, intf = some wanted → entry.intf = wanted) ∧
          destIP.and entry.mask = entry.ip)) ∧
    ∀ entry, lookup (calls.foldl Call.run []) destIP intf = some entry ↔
      ((∀ wanted, intf = some wanted → entry.intf = wanted) ∧ destIP.and entry.mask = entry.ip) ∧
      ∃ earlier call later, calls = earlier ++ call :: later ∧ call.entry = some entry ∧
        (∀ other ∈ earlier.filterMap Call.entry,
          (∀ wanted, intf = some wanted → other.intf = wanted) ∧
            destIP.and other.mask = other.ip → other.maskBits ≤ entry.maskBits) ∧
        ∀ other ∈ later.filterMap Call.entry,
          (∀ wanted, intf = some wanted → other.intf = wanted) ∧
            destIP.and other.mask = other.ip → other.maskBits < entry.maskBits := by
  rw [foldl_run, List.nil_append, lookup_eq_none_iff]
  simp only [← Entry.matchesIP_iff, lookup_eq_some_iff, longest_filterMap_iff, implies_true,
    and_true, List.mem_filterMap]
  constructor
  · intro unmatched call member entry adds
    exact unmatched entry ⟨call, member, adds⟩
  · rintro unmatched entry ⟨call, member, adds⟩
    exact unmatched call member entry adds

end Lookup

end JsOS.Net.Route
