import JsOS.Component.DnsPacket

/-! # The names of queries

`isDomain` returns from its loop in the first round, so it checks the first label only.
`getQuery` writes every label behind its length, and with the length of another one the name is
none that a reader could take: an empty label ends it, and a long one looks like a pointer.
-/

namespace JsOS.Component.Dns

/-! ## Domains and names -/

/-- A label of 1 to 63 characters. -/
def IsLabel (label : List Char) : Prop := 1 ≤ label.length ∧ label.length ≤ 63

/-- A domain: at most 255 characters from `domainRegex`, and each label of 1 to 63 of them. -/
def IsDomainName (domain : List Char) : Prop :=
  domain.length ≤ 255 ∧ (∀ char ∈ domain, isDomainChar char = true) ∧
    ∀ label ∈ domain.splitOn '.', IsLabel label

/-- A text with a label behind the first one that is empty or too long, and otherwise a domain. -/
def HasUncheckedLabel (domain : List Char) : Prop :=
  domain.length ≤ 255 ∧ (∀ char ∈ domain, isDomainChar char = true) ∧
    (∀ label ∈ (domain.splitOn '.').head?, IsLabel label) ∧
    ∃ label ∈ (domain.splitOn '.').tail, ¬IsLabel label

/-- **A name in a packet**, without pointers: labels of 1 to 63 bytes behind their lengths, and a
zero byte behind the last. -/
inductive ValidName : List UInt8 → Prop
  | root : ValidName [0]
  | label {len : UInt8} {label rest : List UInt8} (filled : 1 ≤ len.toNat) (short : len.toNat ≤ 63)
      (length : label.length = len.toNat) (later : ValidName rest) : ValidName (len :: label ++ rest)

/-- The bytes of a query between its header and its type. -/
def nameField (u8 : List UInt8) : List UInt8 := (u8.drop 12).take (u8.length - 16)

/-! ## Labels -/

/-- A label stands in its domain. -/
theorem isInfix_of_mem_splitOn {domain label : List Char} (listed : label ∈ domain.splitOn '.') :
    label <:+: domain := by
  have inJoin (labels : List (List Char)) (listed : label ∈ labels) :
      label <:+: ['.'].intercalate labels := by
    induction labels with
    | nil => cases listed
    | cons first later ih =>
        cases later with
        | nil =>
            rw [List.intercalate_singleton, ← List.mem_singleton.mp listed]
        | cons second later =>
            rw [List.intercalate_cons_cons]
            rcases List.mem_cons.mp listed with rfl | listed
            · rw [List.append_assoc]
              exact (List.prefix_append _ _).isInfix
            · exact (ih listed).trans (List.suffix_append _ _).isInfix
  have stands := inJoin _ listed
  rwa [List.intercalate_splitOn] at stands

theorem splitOn_eq_cons (domain : List Char) :
    ∃ first later, domain.splitOn '.' = first :: later :=
  List.exists_cons_of_ne_nil (List.splitOn_ne_nil '.' domain)

/-- **What `isDomain` checks**: of the labels the first one. -/
theorem isDomain_iff {domain first : List Char} {later : List (List Char)}
    (split : domain.splitOn '.' = first :: later) :
    isDomain domain = true ↔
      domain.length ≤ 255 ∧ (∀ char ∈ domain, isDomainChar char = true) ∧ IsLabel first := by
  have filled (label : IsLabel first) : domain ≠ [] := by
    rintro rfl
    rw [List.splitOn_nil] at split
    obtain ⟨rfl, -⟩ := List.cons.inj split
    exact absurd label.1 (by decide)
  rw [isDomain, split]
  simp only [Bool.and_eq_true, decide_eq_true_eq, Bool.not_eq_true', List.isEmpty_eq_false_iff,
    List.all_eq_true]
  exact ⟨fun ⟨⟨⟨short, _⟩, chars⟩, label⟩ => ⟨short, chars, label⟩,
    fun ⟨short, chars, label⟩ => ⟨⟨⟨short, filled label⟩, chars⟩, label⟩⟩

/-! ## The name that is written -/

theorem getQuery_eq_some_iff {domain : List Char} {query : String} {u8 : List UInt8} :
    getQuery domain query = some u8 ↔
      isDomain domain = true ∧
        (uint16 randomId ++ uint16 0x0100 ++ uint16 1 ++ uint16 0 ++ uint16 0 ++ uint16 0) ++
          ((domain.splitOn '.').flatMap labelBytes ++ [0]) ++
          (uint16 (queries query) ++ uint16 1) = u8 := by
  rw [getQuery]
  by_cases accepted : isDomain domain = true
  · rw [if_pos accepted, and_iff_right accepted, Option.some.injEq]
    simp only [List.append_assoc]
  · rw [if_neg accepted]
    exact iff_of_false (Option.some_ne_none u8).symm fun both => accepted both.1

/-- **The name field of a query**: every label behind its length. -/
theorem nameField_getQuery {domain : List Char} {query : String} {u8 : List UInt8}
    (written : getQuery domain query = some u8) :
    nameField u8 = (domain.splitOn '.').flatMap labelBytes ++ [0] := by
  obtain ⟨-, rfl⟩ := getQuery_eq_some_iff.mp written
  have header : (uint16 randomId ++ uint16 0x0100 ++ uint16 1 ++ uint16 0 ++ uint16 0 ++
      uint16 0).length = 12 := rfl
  generalize uint16 randomId ++ uint16 0x0100 ++ uint16 1 ++ uint16 0 ++ uint16 0 ++ uint16 0 =
    front at header ⊢
  have back : (uint16 (queries query) ++ uint16 1).length = 4 := rfl
  generalize uint16 (queries query) ++ uint16 1 = type at back ⊢
  generalize (domain.splitOn '.').flatMap labelBytes ++ [0] = name
  have length : (front ++ (name ++ type)).length - 16 = name.length := by
    rw [List.length_append, List.length_append]
    omega
  rw [nameField, List.append_assoc, length, ← header, List.drop_left, List.take_left]

theorem toNat_length {label : List Char} (short : label.length ≤ 255) :
    (UInt8.ofNat label.length).toNat = label.length := by
  rw [UInt8.toNat_ofNat', Nat.mod_eq_of_lt (Nat.lt_succ_of_le short)]

/-- One label in front of a name. -/
theorem validName_labelBytes_iff {label : List Char} {rest : List UInt8}
    (short : label.length ≤ 255) (more : rest ≠ []) :
    ValidName (labelBytes label ++ rest) ↔ IsLabel label ∧ ValidName rest := by
  have len := toNat_length short
  constructor
  · intro valid
    rw [labelBytes, List.cons_append] at valid
    generalize written : UInt8.ofNat label.length :: ((label.map fun char =>
      UInt8.ofNat char.toNat) ++ rest) = bytes at valid
    cases valid with
    | root =>
        -- a zero byte alone is not followed by anything
        have none := (List.append_eq_nil_iff.mp (List.cons.inj written).2).2
        exact absurd none more
    | label filled fits length later =>
        rw [List.cons_append] at written
        obtain ⟨rfl, same⟩ := List.cons.inj written
        rw [len] at filled fits length
        obtain ⟨-, rfl⟩ := List.append_inj same (by rw [List.length_map, length])
        exact ⟨⟨filled, fits⟩, later⟩
  · rintro ⟨isLabel, valid⟩
    refine .label ?_ ?_ ?_ valid
    · rw [len]
      exact isLabel.1
    · rw [len]
      exact isLabel.2
    · rw [len, List.length_map]

/-- **Labels make a valid name exactly if each of them has 1 to 63 characters.** -/
theorem validName_iff {labels : List (List Char)}
    (short : ∀ label ∈ labels, label.length ≤ 255) :
    ValidName (labels.flatMap labelBytes ++ [0]) ↔ ∀ label ∈ labels, IsLabel label := by
  induction labels with
  | nil => exact iff_of_true .root fun _ listed => (nomatch listed)
  | cons first later ih =>
      rw [List.flatMap_cons, List.append_assoc, List.forall_mem_cons,
        validName_labelBytes_iff (short first List.mem_cons_self)
          (List.append_ne_nil_of_right_ne_nil _ (List.cons_ne_nil _ _)),
        ih fun label listed => short label (List.mem_cons_of_mem _ listed)]

/-! ## Which domains are accepted -/

/-- Queries carry only valid names: a domain is taken for one exactly if it is one, and the name
that is written for it is valid. -/
def CarriesValidNames (domain : List Char) : Prop :=
  (isDomain domain = true ↔ IsDomainName domain) ∧
    ∀ query u8, getQuery domain query = some u8 → ValidName (nameField u8)

/-- The name of a query is valid exactly if the domain is one. -/
theorem validName_getQuery_iff {domain : List Char} {query : String} {u8 : List UInt8}
    (written : getQuery domain query = some u8) :
    ValidName (nameField u8) ↔ IsDomainName domain := by
  obtain ⟨first, later, split⟩ := splitOn_eq_cons domain
  obtain ⟨short, chars, -⟩ := (isDomain_iff split).mp (getQuery_eq_some_iff.mp written).1
  rw [nameField_getQuery written,
    validName_iff fun label listed => Nat.le_trans (isInfix_of_mem_splitOn listed).length_le short, IsDomainName,
    and_iff_right short, and_iff_right chars]

/-- **Queries carry only valid names, but for the labels behind the first.** This fails exactly for
the texts of at most 255 characters of a domain whose first label has 1 to 63 of them, and some
later label none or more. -/
theorem carriesValidNames_iff (domain : List Char) :
    CarriesValidNames domain ↔ ¬HasUncheckedLabel domain := by
  obtain ⟨first, later, split⟩ := splitOn_eq_cons domain
  have accepts := isDomain_iff split
  constructor
  · rintro ⟨exact, -⟩ ⟨short, chars, checked, label, listed, other⟩
    rw [split] at checked listed
    have named := exact.mp (accepts.mpr ⟨short, chars, checked first rfl⟩)
    rw [IsDomainName, split] at named
    exact other (named.2.2 label (List.mem_cons_of_mem _ listed))
  · intro checked
    have named (accepted : isDomain domain = true) : IsDomainName domain := by
      obtain ⟨short, chars, isLabel⟩ := accepts.mp accepted
      refine ⟨short, chars, ?_⟩
      by_contra some
      rw [split, List.forall_mem_cons, and_iff_right isLabel] at some
      refine checked ⟨short, chars, ?_, ?_⟩
      · rw [split]
        intro label same
        obtain rfl := Option.some.inj same
        exact isLabel
      · rw [split, List.tail_cons]
        simpa only [not_forall, exists_prop] using some
    refine ⟨⟨named, fun ⟨short, chars, labels⟩ => ?_⟩, fun query u8 written => ?_⟩
    · rw [split, List.forall_mem_cons] at labels
      exact accepts.mpr ⟨short, chars, labels.1⟩
    · exact (validName_getQuery_iff written).mpr (named (getQuery_eq_some_iff.mp written).1)

/-- A name with two full stops in a row is accepted, and written with a zero byte inside. -/
theorem doubleStop_not_carriesValidNames :
    isDomain ['a', '.', '.', 'b'] = true ∧
      (getQuery ['a', '.', '.', 'b'] "A").map nameField = some [1, 97, 0, 1, 98, 0] ∧
      ¬CarriesValidNames ['a', '.', '.', 'b'] := by
  have split : ['a', '.', '.', 'b'].splitOn '.' = [['a'], [], ['b']] := by decide +kernel
  have accepted : isDomain ['a', '.', '.', 'b'] = true := by decide +kernel
  refine ⟨accepted, by decide +kernel, fun ⟨exact, _⟩ => ?_⟩
  have labels := (exact.mp accepted).2.2
  rw [split] at labels
  have empty := labels [] (by decide)
  exact absurd empty.1 (by decide)

end JsOS.Component.Dns
