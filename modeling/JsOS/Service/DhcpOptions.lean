import JsOS.Service.DhcpPacket

/-! # Reading DHCP options

The loop of `getOptions` takes the option area apart from the front: an end byte stops it, a
byte 0 is skipped together with the two bytes that follow it, and any other byte is the id of
an option (`DhcpPacket.Reads`). An area is what the format allows there: pads of a single
byte 0 and options, up to the end byte. The loop reads such an area as it is meant exactly
when its pads come in threes.
-/

namespace JsOS.Service.DhcpPacket

/-- An option as the reader gives it when all of its bytes are in the packet. -/
def SentOption.received (option : SentOption) : DhcpOption :=
  ⟨option.id, option.bytes.map some⟩

/-- The number of bytes that the byte after an id announces; none when it is missing. -/
def announced (rest : Bytes) : Nat := (rest.head?.getD 0).toNat

/-- What the loop of `getOptions` makes of the bytes from its index on. -/
inductive Reads : Bytes → List DhcpOption → Prop
  | nil : Reads [] []
  | ended (rest : Bytes) : Reads (0xff :: rest) []
  | pad {rest : Bytes} {options : List DhcpOption} (later : Reads (rest.drop 2) options) :
      Reads (0x00 :: rest) options
  | option {id : UInt8} {rest : Bytes} {options : List DhcpOption} (notEnd : id ≠ 0xff)
      (notPad : id ≠ 0x00) (later : Reads (rest.drop (1 + announced rest)) options) :
      Reads (id :: rest)
        (⟨id, (List.range (announced rest)).map fun j => rest[1 + j]?⟩ :: options)

/-- The bytes determine what is read. -/
theorem Reads.unique {area : Bytes} {first second : List DhcpOption} (reads : Reads area first)
    (again : Reads area second) : first = second := by
  induction reads generalizing second with
  | nil => cases again; rfl
  | ended rest =>
      cases again with
      | ended => rfl
      | option notEnd _ _ => exact absurd rfl notEnd
  | pad later ih =>
      cases again with
      | pad later' => exact ih later'
      | option _ notPad _ => exact absurd rfl notPad
  | option notEnd notPad later ih =>
      cases again with
      | ended => exact absurd rfl notEnd
      | pad => exact absurd rfl notPad
      | option _ _ later' => rw [ih later']

/-- The loop, with rounds enough to get to the end. -/
theorem reads_optionsFrom (u8 : Bytes) {fuel i : Nat} (enough : u8.length ≤ i + fuel) :
    Reads (u8.drop i) (optionsFrom u8 fuel i) := by
  induction fuel generalizing i with
  | zero =>
      have none : u8.drop i = [] := List.drop_eq_nil_of_le enough
      rw [none]
      exact .nil
  | succ fuel ih =>
      unfold optionsFrom
      cases found : u8[i]? with
      | none =>
          rw [List.drop_eq_nil_of_le (List.getElem?_eq_none_iff.mp found)]
          exact .nil
      | some optId =>
          obtain ⟨inside, isId⟩ := List.getElem?_eq_some_iff.mp found
          have length : (u8[i + 1]?.getD 0).toNat = announced (u8.drop (i + 1)) := by
            rw [announced, List.head?_drop]
          have bytes (j : Nat) : u8[i + 2 + j]? = (u8.drop (i + 1))[1 + j]? := by
            rw [List.getElem?_drop, Nat.add_assoc i 1, ← Nat.add_assoc 1 1 j, Nat.add_assoc i 2]
          rw [List.drop_eq_getElem_cons inside, isId]
          dsimp only
          by_cases isEnd : optId = 0xff
          · rw [if_pos isEnd, isEnd]
            exact .ended _
          · rw [if_neg isEnd]
            by_cases isPad : optId = 0x00
            · rw [if_pos isPad, isPad]
              refine .pad ?_
              rw [List.drop_drop]
              exact ih (by omega)
            · rw [if_neg isPad, length]
              simp only [bytes]
              refine .option isEnd isPad ?_
              rw [List.drop_drop, ← Nat.add_assoc, Nat.add_assoc i 1 1]
              exact ih (by omega)

/-- **What `getOptions` returns** is what it reads behind the magic cookie. -/
theorem getOptions_eq_iff {header area : Bytes} {options : List DhcpOption}
    (length : header.length = OPTIONS_OFFSET + 4) :
    getOptions (header ++ area) = options ↔ Reads area options := by
  have reads := reads_optionsFrom (header ++ area) (Nat.le_add_left _ (OPTIONS_OFFSET + 4))
  rw [← length, List.drop_left, length] at reads
  exact ⟨fun result => result ▸ reads, fun other => reads.unique other⟩

theorem reads_pad {rest : Bytes} {options : List DhcpOption} :
    Reads (0x00 :: rest) options ↔ Reads (rest.drop 2) options := by
  constructor
  · intro reads
    cases reads with
    | pad later => exact later
    | option _ notPad _ => exact absurd rfl notPad
  · exact .pad

theorem reads_id {id : UInt8} {rest : Bytes} {options : List DhcpOption} (notEnd : id ≠ 0xff)
    (notPad : id ≠ 0x00) :
    Reads (id :: rest) options ↔
      ∃ others, options = ⟨id, (List.range (announced rest)).map fun j => rest[1 + j]?⟩ :: others ∧
        Reads (rest.drop (1 + announced rest)) others := by
  constructor
  · intro reads
    cases reads with
    | ended => exact absurd rfl notEnd
    | pad => exact absurd rfl notPad
    | option _ _ later => exact ⟨_, rfl, later⟩
  · rintro ⟨others, rfl, later⟩
    exact .option notEnd notPad later

/-! ## Areas that the format allows -/

/-- An option whose id is not taken by a pad or by the end, and whose length fits its byte. -/
structure AreaOption extends SentOption where
  notPad : id ≠ 0x00
  notEnd : id ≠ 0xff
  short : bytes.length ≤ 255
  deriving DecidableEq

/-- What an option area is a sequence of. -/
inductive Item where
  | pad
  | option (listed : AreaOption)
  deriving DecidableEq

def Item.encode : Item → Bytes
  | .pad => [0x00]
  | .option listed => listed.toSentOption.encode

def Item.option? : Item → Option DhcpOption
  | .pad => none
  | .option listed => some listed.toSentOption.received

/-- The bytes of an area up to its end byte. -/
def encodeItems (items : List Item) : Bytes := items.flatMap Item.encode

/-- The options of an area. -/
def optionsOf (items : List Item) : List DhcpOption := items.filterMap Item.option?

theorem AreaOption.announced_encode (option : AreaOption) (rest : Bytes) :
    announced (.ofNat option.bytes.length :: option.bytes ++ rest) = option.bytes.length :=
  Nat.mod_eq_of_lt (Nat.lt_succ_of_le option.short)

/-- **An option in front is read as it is.** -/
theorem reads_encode_append (option : AreaOption) {rest : Bytes} {options : List DhcpOption} :
    Reads (option.encode ++ rest) options ↔
      ∃ others, options = option.received :: others ∧ Reads rest others := by
  have length := option.announced_encode rest
  have bytes : (List.range option.bytes.length).map (fun j =>
      (.ofNat option.bytes.length :: option.bytes ++ rest)[1 + j]?) = option.bytes.map some := by
    refine List.ext_getElem? fun j => ?_
    rw [List.getElem?_map, List.getElem?_map]
    by_cases inside : j < option.bytes.length
    · rw [List.getElem?_range inside, List.cons_append, Option.map_some, Nat.add_comm 1 j,
        List.getElem?_cons_succ, List.getElem?_append_left inside, List.getElem?_eq_getElem inside]
      rfl
    · rw [List.getElem?_eq_none (by rw [List.length_range]; exact Nat.le_of_not_lt inside),
        List.getElem?_eq_none (Nat.le_of_not_lt inside)]
      rfl
  have after : (.ofNat option.bytes.length :: option.bytes ++ rest).drop
      (1 + announced (.ofNat option.bytes.length :: option.bytes ++ rest)) = rest := by
    rw [length, Nat.add_comm, List.cons_append, List.drop_succ_cons, List.drop_left]
  change Reads (option.id :: (.ofNat option.bytes.length :: option.bytes ++ rest)) options ↔ _
  rw [reads_id option.notEnd option.notPad, after, length, bytes]
  rfl

/-! ## Pads -/

/-- Every run of consecutive pads is a multiple of three long. -/
def padsInThrees : List Item → Bool
  | [] => true
  | .option _ :: items => padsInThrees items
  | .pad :: .pad :: .pad :: items => padsInThrees items
  | _ => false

/-- The pads in front of the first option. -/
def leadingPads : List Item → Nat
  | .pad :: items => leadingPads items + 1
  | _ => 0

/-- Pads in threes are skipped as they are meant to be. -/
theorem reads_of_padsInThrees {items : List Item} (threes : padsInThrees items = true)
    (trailing : Bytes) : Reads (encodeItems items ++ 0xff :: trailing) (optionsOf items) := by
  induction items using padsInThrees.induct with
  | case1 => exact .ended _
  | case2 listed items ih =>
      rw [encodeItems, List.flatMap_cons, List.append_assoc]
      exact (reads_encode_append listed).mpr ⟨_, rfl, ih threes⟩
  | case3 items ih => exact .pad (ih threes)
  | case4 items => 
      rw [padsInThrees] at threes
      · cases threes
      all_goals assumption

/-- When the last of a window in a list is periodic and one period of it is constant, so is all
of it. -/
theorem getElem?_of_periodic {α : Type} {l : List α} {k n : Nat} {a : α} (positive : 0 < k)
    (period : ∀ j < n, l[j + k]? = l[j]?)
    (window : ∀ j, n ≤ j → j < n + k → l[j]? = some a) (j : Nat) (inside : j < n + k) :
    l[j]? = some a := by
  induction gap : n + k - j using Nat.strong_induction_on generalizing j with
  | _ gap' ih =>
      by_cases before : j < n
      · rw [← period j before]
        exact ih (n + k - (j + k)) (by omega) (j + k) (by omega) rfl
      · exact window j (Nat.le_of_not_lt before) inside

/-- The first option that is read stands behind skipped bytes, the last three of which begin
with a byte 0. -/
theorem Reads.first {area : Bytes} {option : DhcpOption} {options : List DhcpOption}
    (reads : Reads area (option :: options)) :
    ∃ skip rest, area.drop skip = option.id :: rest ∧
      option.bytes = (List.range (announced rest)).map (fun j => rest[1 + j]?) ∧
      Reads (rest.drop (1 + announced rest)) options ∧
      (skip = 0 ∨ ∃ last, skip = last + 3 ∧ area[last]? = some 0x00) := by
  generalize all : option :: options = read at reads
  induction reads with
  | nil => cases all
  | ended => cases all
  | @pad rest read later ih =>
      obtain ⟨skip, rest', found, bytes, others, bound⟩ := ih all
      refine ⟨skip + 3, rest', ?_, bytes, others, .inr ?_⟩
      · rw [← found, List.drop_drop, Nat.add_comm 2 skip]
        rfl
      · rcases bound with rfl | ⟨last, rfl, zero⟩
        · exact ⟨0, rfl, rfl⟩
        · refine ⟨last + 3, rfl, ?_⟩
          rw [List.getElem?_drop, Nat.add_comm] at zero
          exact zero
  | option notEnd notPad later ih =>
      cases all
      exact ⟨0, _, rfl, rfl, later, .inl rfl⟩

/-- An area with bytes after its end that are read as options from wherever one starts. -/
def followed (items : List Item) (count : Nat) : Bytes :=
  encodeItems items ++ 0xff :: List.replicate count 0x01

theorem followed_pad (items : List Item) (count : Nat) :
    followed (.pad :: items) count = 0x00 :: followed items count := rfl

theorem followed_option (listed : AreaOption) (items : List Item) (count : Nat) :
    followed (.option listed :: items) count = listed.encode ++ followed items count := by
  rw [followed, encodeItems, List.flatMap_cons, List.append_assoc]
  rfl

/-- Behind the items of an area no byte is 0. -/
theorem lt_of_followed_eq_zero {items : List Item} {count place : Nat}
    (zero : (followed items count)[place]? = some 0x00) : place < (encodeItems items).length := by
  by_contra outside
  rw [followed, List.getElem?_append_right (Nat.le_of_not_lt outside)] at zero
  cases behind : place - (encodeItems items).length with
  | zero =>
      rw [behind] at zero
      cases zero
  | succ j =>
      rw [behind, List.getElem?_cons_succ, List.getElem?_replicate] at zero
      split at zero <;> cases zero

/-- The bytes of pads in front are 0. -/
theorem followed_leading (items : List Item) (count : Nat) {place : Nat}
    (inside : place < leadingPads items) : (followed items count)[place]? = some 0x00 := by
  induction items generalizing place with
  | nil => exact absurd inside (Nat.not_lt_zero place)
  | cons item items ih =>
      cases item with
      | option => exact absurd inside (Nat.not_lt_zero place)
      | pad =>
          rw [followed_pad]
          cases place with
          | zero => rfl
          | succ place => exact ih (Nat.lt_of_succ_lt_succ inside)

theorem AreaOption.length_encode (listed : AreaOption) :
    listed.encode.length = 2 + listed.bytes.length := by
  rw [SentOption.encode, List.length_cons, List.length_cons]
  omega

/-- An option that is read at another place than its own stands there once more, and what
follows it there is what follows that place. -/
theorem AreaOption.repeats {listed : AreaOption} {behind rest : Bytes} {place : Nat}
    (found : (listed.encode ++ behind).drop place = listed.id :: rest)
    (bytes : listed.received.bytes = (List.range (announced rest)).map fun j => rest[1 + j]?)
    (notLast : rest ≠ []) :
    (∀ j < 2 + listed.bytes.length,
      (listed.encode ++ behind)[j + place]? = (listed.encode ++ behind)[j]?) ∧
      rest.drop (1 + announced rest) = behind.drop place := by
  have sameLength : announced rest = listed.bytes.length := by
    have lengths := congrArg List.length bytes
    rw [SentOption.received, List.length_map, List.length_map, List.length_range] at lengths
    exact lengths.symm
  obtain ⟨first, contents, rfl⟩ := List.exists_cons_of_ne_nil notLast
  have isLength : first = .ofNat listed.bytes.length := by
    rw [← sameLength]
    exact (UInt8.ofNat_toNat).symm
  constructor
  · intro j inside
    have own : (listed.encode ++ behind)[j]? = listed.encode[j]? :=
      List.getElem?_append_left (by rw [listed.length_encode]; exact inside)
    rw [own, Nat.add_comm, ← List.getElem?_drop, found]
    rcases j with _ | _ | j
    · rfl
    · exact congrArg some isLength
    · have here := congrArg (·[j]?) bytes
      have bounded : j < listed.bytes.length := by omega
      rw [SentOption.received, List.getElem?_map, List.getElem?_map, sameLength,
        List.getElem?_range bounded, List.getElem?_eq_getElem bounded, Option.map_some, Option.map_some,
        Nat.add_comm 1] at here
      rw [SentOption.encode, List.getElem?_cons_succ, List.getElem?_cons_succ,
        List.getElem?_cons_succ, List.getElem?_cons_succ, List.getElem?_eq_getElem bounded]
      exact (Option.some.inj here).symm
  · have drop : (first :: contents).drop (1 + announced (first :: contents)) =
        (listed.id :: first :: contents).drop (2 + listed.bytes.length) := by
      rw [sameLength, Nat.add_comm 1, Nat.add_comm 2]
      rfl
    rw [drop, ← found, List.drop_drop, Nat.add_comm, ← List.drop_drop, ← listed.length_encode,
      List.drop_left]

/-- **A reader that is ahead of the next option stays ahead.** It finds the bytes of an option
again only where they repeat, and then what follows repeats too and is not a run of pads that
it could catch up in. So it misses an option or gets past the end. -/
theorem not_reads_ahead {items : List Item} {ahead count : Nat} (past : leadingPads items < ahead)
    (near : ahead ≤ count) (room : (encodeItems items).length + 2 ≤ count) :
    ¬Reads ((followed items count).drop ahead) (optionsOf items) := by
  induction items generalizing ahead with
  | nil =>
      intro reads
      obtain ⟨before, rfl⟩ : ∃ before, ahead = before + 1 := ⟨ahead - 1, by
        have positive : 0 < ahead := past
        omega⟩
      obtain ⟨left, rfl⟩ : ∃ left, count = before + (left + 1) :=
        ⟨count - before - 1, by omega⟩
      have rest : (followed [] (before + (left + 1))).drop (before + 1) =
          0x01 :: List.replicate left 0x01 := by
        change (List.replicate _ _).drop before = _
        rw [List.drop_replicate, Nat.add_sub_cancel_left, List.replicate_succ]
      rw [rest] at reads
      cases reads
  | cons item items ih =>
      cases item with
      | pad =>
          obtain ⟨before, rfl⟩ : ∃ before, ahead = before + 1 := ⟨ahead - 1, by
            have positive : 0 < ahead := Nat.lt_of_le_of_lt (Nat.zero_le _) past
            omega⟩
          have length : (encodeItems (.pad :: items)).length = (encodeItems items).length + 1 := rfl
          rw [followed_pad, List.drop_succ_cons]
          exact ih (Nat.lt_of_succ_lt_succ past) (by omega) (by omega)
      | option listed =>
          intro reads
          have length : (encodeItems (.option listed :: items)).length =
              2 + listed.bytes.length + (encodeItems items).length := by
            rw [encodeItems, List.flatMap_cons, List.length_append]
            exact congrArg (· + _) listed.length_encode
          obtain ⟨skip, rest, found, bytes, later, bound⟩ := reads.first
          rw [List.drop_drop] at found
          -- skipping does not lead further than two bytes past the items
          have near' : ahead + skip ≤ count := by
            rcases bound with rfl | ⟨last, rfl, zero⟩
            · exact near
            · rw [List.getElem?_drop] at zero
              have inside := lt_of_followed_eq_zero zero
              omega
          have notLast : rest ≠ [] := by
            rintro rfl
            have left := congrArg List.length found
            rw [List.length_drop, followed, List.length_append, length, List.length_cons,
              List.length_replicate] at left
            change _ = 1 at left
            omega
          rw [followed_option] at found
          obtain ⟨period, follows⟩ := AreaOption.repeats found bytes notLast
          rw [follows] at later
          refine ih ?_ near' (by omega) later
          -- otherwise the period holds zeros only, and the id with it
          by_contra caught
          have zero := getElem?_of_periodic (a := 0x00)
            (Nat.lt_of_lt_of_le past (Nat.le_add_right ahead skip)) period
            (fun j after inside => by
              rw [List.getElem?_append_right (by rw [listed.length_encode]; exact after),
                listed.length_encode]
              exact followed_leading items count (by omega)) 0 (by omega)
          exact listed.notPad (Option.some.inj zero)

/-- **Pads in threes.** Whatever follows the end of an area, its options are read as they are,
exactly when its pads come in threes. -/
theorem reads_items_iff (items : List Item) :
    (∀ trailing : Bytes, Reads (encodeItems items ++ 0xff :: trailing) (optionsOf items)) ↔
      padsInThrees items = true := by
  constructor
  · intro reads
    have read (count : Nat) : Reads (followed items count) (optionsOf items) := reads _
    clear reads
    induction items using padsInThrees.induct with
    | case1 => rfl
    | case2 listed items ih =>
        refine ih fun count => ?_
        have whole := read count
        rw [followed_option] at whole
        obtain ⟨others, same, rest⟩ := (reads_encode_append listed).mp whole
        cases same
        exact rest
    | case3 items ih => exact ih fun count => reads_pad.mp (read count)
    | case4 items notEmpty notOption notThree =>
        obtain ⟨tail, rfl⟩ : ∃ tail, items = .pad :: tail := by
          rcases items with _ | ⟨_ | listed, tail⟩
          · exact absurd rfl notEmpty
          · exact ⟨tail, rfl⟩
          · exact absurd rfl (notOption listed tail)
        -- the first pad takes a byte with it that is not a pad
        have few : leadingPads tail < 2 := by
          rcases tail with _ | ⟨_ | _, _ | ⟨_ | _, rest⟩⟩
          case cons.pad.cons.pad => exact absurd rfl (notThree rest)
          all_goals simp [leadingPads]
        exact absurd (reads_pad.mp (read ((encodeItems tail).length + 2)))
          (not_reads_ahead few (Nat.le_add_left 2 _) (Nat.le_refl _))
  · exact reads_of_padsInThrees

/-! ## Areas that are cut short -/

/-- An area that ends inside the bytes of an option: behind options and behind bytes 0 that take
two bytes with them stand an id and a length that announces more than is left. -/
inductive CutShort : Bytes → Prop
  | bytes {id len : UInt8} {contents : Bytes} (notEnd : id ≠ 0xff) (notPad : id ≠ 0x00)
      (missing : contents.length < len.toNat) : CutShort (id :: len :: contents)
  | pad (a b : UInt8) {area : Bytes} (later : CutShort area) : CutShort (0x00 :: a :: b :: area)
  | option (listed : AreaOption) {area : Bytes} (later : CutShort area) :
      CutShort (listed.encode ++ area)

theorem cutShort_pad {rest : Bytes} : CutShort (0x00 :: rest) ↔ CutShort (rest.drop 2) := by
  constructor
  · intro short
    generalize same : (0x00 :: rest : Bytes) = area at short
    cases short with
    | bytes notEnd notPad _ => 
        cases same
        exact absurd rfl notPad
    | pad a b later => 
        cases same
        exact later
    | option listed later => 
        exact absurd (List.cons.inj same).1.symm listed.notPad
  · intro short
    rcases rest with _ | ⟨a, _ | ⟨b, area⟩⟩
    · cases short
    · cases short
    · exact .pad a b short

theorem cutShort_id {id : UInt8} {rest : Bytes} (notEnd : id ≠ 0xff) (notPad : id ≠ 0x00) :
    CutShort (id :: rest) ↔
      rest.length < 1 + announced rest ∧ rest ≠ [] ∨ CutShort (rest.drop (1 + announced rest)) := by
  constructor
  · intro short
    generalize same : id :: rest = area at short
    cases short with
    | @bytes _ len contents _ _ missing =>
        cases same
        exact .inl ⟨by rw [List.length_cons, Nat.add_comm]; exact Nat.add_lt_add_left missing 1,
          List.cons_ne_nil _ _⟩
    | pad => exact absurd (List.cons.inj same).1 notPad
    | option listed later =>
        have tail := (List.cons.inj same).2
        right
        rw [tail]
        change CutShort (List.drop (1 + announced (.ofNat listed.bytes.length :: listed.bytes ++ _))
          (.ofNat listed.bytes.length :: listed.bytes ++ _))
        rw [listed.announced_encode, Nat.add_comm, List.cons_append, List.drop_succ_cons,
          List.drop_left]
        exact later
  · intro short
    cases rest with
    | nil =>
        rcases short with ⟨_, empty⟩ | short
        · exact absurd rfl empty
        · cases short
    | cons len contents =>
        by_cases missing : contents.length < len.toNat
        · exact .bytes notEnd notPad missing
        · rcases short with ⟨less, _⟩ | short
          · rw [List.length_cons, Nat.add_comm] at less
            exact absurd (Nat.lt_of_add_lt_add_left less) missing
          · have enough := Nat.le_of_not_lt missing
            have size : (contents.take len.toNat).length = len.toNat :=
              List.length_take_of_le enough
            have whole := CutShort.option ⟨⟨id, contents.take len.toNat⟩, notPad, notEnd, by
              rw [size]; exact Nat.le_of_lt_succ len.toNat_lt⟩ short
            change CutShort (id :: .ofNat (contents.take len.toNat).length ::
              (contents.take len.toNat ++ List.drop (1 + len.toNat) (len :: contents))) at whole
            rwa [size, UInt8.ofNat_toNat, Nat.add_comm 1, List.drop_succ_cons,
              List.take_append_drop] at whole

/-- **Undefined bytes** are in an option exactly when the area ends inside the bytes of one. -/
theorem Reads.undefined_iff {area : Bytes} {options : List DhcpOption}
    (reads : Reads area options) : (∃ option ∈ options, none ∈ option.bytes) ↔ CutShort area := by
  induction reads with
  | nil => exact ⟨fun ⟨_, among, _⟩ => (nomatch among), fun short => (nomatch short)⟩
  | ended rest =>
      constructor
      · rintro ⟨_, among, _⟩
        cases among
      · intro short
        generalize same : (0xff :: rest : Bytes) = area at short
        cases short with
        | bytes notEnd => exact absurd (List.cons.inj same).1.symm notEnd
        | pad => cases same
        | option listed => exact absurd (List.cons.inj same).1.symm listed.notEnd
  | pad later ih => rw [ih, cutShort_pad]
  | @option id rest options notEnd notPad later ih =>
      rw [cutShort_id notEnd notPad, ← ih, List.exists_mem_cons_iff]
      refine or_congr ?_ Iff.rfl
      rw [List.mem_map]
      constructor
      · rintro ⟨j, among, missing⟩
        have bounded := List.mem_range.mp among
        have outside := List.getElem?_eq_none_iff.mp missing
        refine ⟨by omega, ?_⟩
        rintro rfl
        exact absurd bounded (Nat.not_lt_zero j)
      · rintro ⟨less, notEmpty⟩
        obtain ⟨len, contents, rfl⟩ := List.exists_cons_of_ne_nil notEmpty
        rw [List.length_cons, Nat.add_comm] at less
        exact ⟨contents.length, List.mem_range.mpr (Nat.lt_of_add_lt_add_left less),
          List.getElem?_eq_none (by rw [List.length_cons, Nat.add_comm])⟩

/-- **When `getOptions` follows the format.** It returns the options of an area, whatever bytes
follow its end, exactly when the pads come in threes; and the options it returns for an area
that need not be complete have all of their bytes in the packet exactly when the area does not
end inside the bytes of an option. -/
theorem getOptions_follows_format {header : Bytes} (length : header.length = OPTIONS_OFFSET + 4)
    (items : List Item) (area : Bytes) :
    ((∀ trailing : Bytes,
        getOptions (header ++ (encodeItems items ++ 0xff :: trailing)) = optionsOf items) ↔
      padsInThrees items = true) ∧
    ((∀ option ∈ getOptions (header ++ area), none ∉ option.bytes) ↔ ¬CutShort area) := by
  constructor
  · rw [← reads_items_iff]
    exact forall_congr' fun trailing => getOptions_eq_iff length
  · have reads : Reads area (getOptions (header ++ area)) := (getOptions_eq_iff length).mp rfl
    rw [← reads.undefined_iff]
    exact ⟨fun defined ⟨option, among, undefined⟩ => defined option among undefined,
      fun defined option among undefined => defined ⟨option, among, undefined⟩⟩

/-- The type of an offer, as an option. -/
def offered : AreaOption := ⟨⟨OPTION_MESSAGE_TYPE, [2]⟩, by decide, by decide, by decide⟩

/-- An area of the offer alone is read as it is, and so is what is left without its end. -/
theorem getOptions_follows_format_offered :
    ((∀ trailing : Bytes, getOptions (List.replicate 240 0 ++
        (encodeItems [.option offered] ++ 0xff :: trailing)) = optionsOf [.option offered]) ↔
      padsInThrees [.option offered] = true) ∧
    ((∀ option ∈ getOptions (List.replicate 240 0 ++ [53, 1, 2]), none ∉ option.bytes) ↔
      ¬CutShort [53, 1, 2]) :=
  getOptions_follows_format List.length_replicate [.option offered] [53, 1, 2]

/-- With one pad in front the offer is not found; and of an offer that is cut short a byte is
returned that is not in the packet. -/
theorem getOptions_pad_and_cut :
    getOptions (List.replicate 240 0 ++ (encodeItems [.pad, .option offered] ++ [0xff])) ≠
        optionsOf [.pad, .option offered] ∧
      getOptions (List.replicate 240 0 ++ [53, 1]) = [⟨53, [none]⟩] := by
  decide +kernel

end JsOS.Service.DhcpPacket
