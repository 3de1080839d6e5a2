import JsOS.Kernel.InitrdReading

/-! # From entries to files

The loop of `Init`, an entry a round. Its reads stay within the inflated buffer exactly when the
bytes of the buffer can be taken apart into entries, and then the files are what the entries
before the first malformed one become.
-/

namespace JsOS.Kernel

namespace Initrd

open ByteMemory Traced

variable {memory : ℕ → UInt8} {module : ℕ × ℕ} {start finish pos : ℕ}

/-! ## A call of `Next` -/

namespace PackageReader

variable {reader : PackageReader} {data : List UInt8}

theorem next_unknown {type : ℕ} {rest : List UInt8} (position : reader.next_ = some pos)
    (more : reader.files_left_ ≠ 0) (inside : start ≤ pos) (small : type < 2 ^ 32)
    (unknown : type ≠ DEFAULT ∧ type ≠ LINK)
    (ahead : Ahead memory finish pos (word type ++ rest)) :
    Runs (Allowed module (start, finish)) (reader.next memory) reader.finish := by
  rw [next_eq_nextAt position more]
  refine ⟨?_, nextAt_unknown reader small unknown ahead⟩
  exact (within_nextAt_iff reader ahead inside).mpr ⟨type, rest, small, rfl, .inl unknown⟩

/-- Entries of a type that is known are read field by field. -/
theorem next_fields {type length content : ℕ} {name rest : List UInt8}
    (position : reader.next_ = some pos) (more : reader.files_left_ ≠ 0) (inside : start ≤ pos)
    (known : type = DEFAULT ∨ type = LINK) (short : name.length < 2 ^ 16)
    (ahead : Ahead memory finish pos
      (word type ++ (Entry.fields length name content ++ rest))) :
    Runs (Allowed module (start, finish)) (reader.next memory)
      (reader.nextOfType memory type (pos + 4)).value := by
  have small : type < 2 ^ 32 := by
    obtain rfl | rfl := known
    · decide
    · decide
  rw [next_eq_nextAt position more]
  refine ⟨?_, nextAt_known reader known ahead⟩
  have reduced : Entry.fields length name content =
      Entry.fields (length % 2 ^ 32) name (content % 2 ^ 32) := by
    rw [Entry.fields, Entry.fields, word_mod, word_mod]
  refine (within_nextAt_iff reader ahead inside).mpr ⟨type, _, small, rfl, .inr ?_⟩
  refine ⟨_, name, _, rest, Nat.mod_lt length (by decide), short,
    Nat.mod_lt content (by decide), ?_⟩
  rw [reduced]

theorem next_link {length target : ℕ} {name rest : List UInt8}
    (position : reader.next_ = some pos) (more : reader.files_left_ ≠ 0) (inside : start ≤ pos)
    (short : name.length < 2 ^ 16) (small : target < 2 ^ 32)
    (ahead : Ahead memory finish pos
      (word LINK ++ (Entry.fields length name target ++ rest))) :
    Runs (Allowed module (start, finish)) (reader.next memory)
      (⟨true, .at (pos + 10), none, length % 2 ^ 32, target⟩,
        { reader with
          next_ := some (pos + 4 + (Entry.fields length name target).length)
          files_left_ := reader.files_left_ - 1 }) := by
  have fieldsAhead := ahead.back
  have value := nextOfType_value reader LINK short fieldsAhead
  rw [if_pos rfl, Nat.mod_eq_of_lt small, length_word] at value
  rw [← value]
  exact next_fields position more inside (.inr rfl) short ahead

theorem next_file {length crc32 : ℕ} {name rest : List UInt8}
    (position : reader.next_ = some pos) (more : reader.files_left_ ≠ 0) (inside : start ≤ pos)
    (short : name.length < 2 ^ 16) (fits : length < 2 ^ 32) (small : crc32 < 2 ^ 32)
    (ahead : Ahead memory finish pos
      (word DEFAULT ++ (Entry.fields length name crc32 ++ rest))) :
    Runs (Allowed module (start, finish)) (reader.next memory)
      (⟨false, .at (pos + 10), some (pos + 4 + (Entry.fields length name crc32).length), length,
          crc32⟩,
        { reader with
          next_ := some (pos + 4 + (Entry.fields length name crc32).length + length)
          files_left_ := reader.files_left_ - 1 }) := by
  have fieldsAhead := ahead.back
  have value := nextOfType_value reader DEFAULT short fieldsAhead
  rw [if_neg (by decide), Nat.mod_eq_of_lt small, Nat.mod_eq_of_lt fits, length_word] at value
  rw [← value]
  exact next_fields position more inside (.inl rfl) short ahead

end PackageReader

/-! ## A round -/

section Round

variable {again : PackageReader → List InitrdFile → Reading (Option (List InitrdFile))}
  {files_ : List InitrdFile} {reader : PackageReader} {len content name buf : ℕ}

theorem initRound_link :
    initRound memory again files_ ⟨true, .at name, none, len, content⟩ reader =
      files_[content]?.elim (pure (some files_)) fun f =>
        again reader (files_ ++ [⟨.at name, f._size, f._data, false⟩]) := by
  unfold initRound
  cases files_[content]? with
  | none => rfl
  | some f => rfl

theorem initRound_file :
    initRound memory again files_ ⟨false, .at name, some buf, len, content⟩ reader =
      act (.access .inflated buf len) (CRC32.compute (window memory buf len)) >>= fun crc32 =>
        if content ≠ crc32.toNat then pure (some files_)
        else again reader (files_ ++ [⟨.at name, len, .at buf, false⟩]) := rfl

end Round

/-! ## The loop -/

theorem initLoop_finish {reader : PackageReader} {allowed : Action → Prop} (fuel : ℕ)
    (files_ : List InitrdFile) (finished : Runs allowed (reader.next memory) reader.finish) :
    Runs allowed (initLoop memory (fuel + 1) reader files_) (some files_) :=
  finished.bind (runs_pure (some files_))

theorem next_done {reader : PackageReader} (none_left : reader.files_left_ = 0) :
    reader.next memory = pure reader.finish := by
  rw [PackageReader.next]
  cases reader.next_ with
  | none => rfl
  | some next => exact if_pos none_left

theorem checksum_runs {contents rest : List UInt8} {buf : ℕ} (inside : start ≤ buf)
    (ahead : Ahead memory finish buf (contents ++ rest)) :
    Runs (Allowed module (start, finish))
      (act (.access .inflated buf contents.length)
        (CRC32.compute (window memory buf contents.length)) : Reading UInt32)
      (CRC32.compute contents) := by
  have held : window memory buf contents.length = contents := ahead.front
  rw [held]
  exact runs_act ⟨inside, ahead.front_le⟩ _

/-- **Bytes in the format are read within bounds, and become the files of their entries.** -/
theorem Parses.runs {known left : ℕ} {data : List UInt8} {entries : List Entry}
    (parses : Parses known left data entries) {pos : ℕ} {reader : PackageReader}
    {files_ : List InitrdFile} {before : List Entry} (loaded : Loaded memory before files_)
    (count : files_.length = known) (position : reader.next_ = some pos)
    (more : reader.files_left_ = left) (inside : start ≤ pos)
    (ahead : Ahead memory finish pos data) :
    ∃ all, Runs (Allowed module (start, finish)) (initLoop memory (left + 1) reader files_)
        (some all) ∧ Loaded memory (before ++ entries) all := by
  induction parses generalizing pos reader files_ before with
  | done known data =>
      refine ⟨files_, ?_, ?_⟩
      · apply initLoop_finish
        rw [next_done more]
        exact runs_pure _
      · rw [List.append_nil]
        exact loaded
  | unknownType small unknown =>
      refine ⟨files_, ?_, ?_⟩
      · apply initLoop_finish
        exact PackageReader.next_unknown position (more ▸ Nat.succ_ne_zero _) inside small
          unknown ahead
      · rw [List.append_nil]
        exact loaded
  | wrongLink short small wrong =>
      refine ⟨files_, ?_, ?_⟩
      · have next : Runs (Allowed module (start, finish)) (reader.next memory) _ :=
          PackageReader.next_link position (more ▸ Nat.succ_ne_zero _) inside short small ahead
        refine next.bind ?_
        rw [initRound_link, List.getElem?_eq_none (count ▸ wrong)]
        exact runs_pure _
      · rw [List.append_nil]
        exact loaded
  | @wrongChecksum _ _ crc32 name contents rest short fits small wrong =>
      refine ⟨files_, ?_, ?_⟩
      · have next : Runs (Allowed module (start, finish)) (reader.next memory) _ :=
          PackageReader.next_file position (more ▸ Nat.succ_ne_zero _) inside short fits small ahead
        have contentsAhead := ahead.back.back
        rw [length_word] at contentsAhead
        refine next.bind ?_
        rw [initRound_file]
        refine (checksum_runs ?_ contentsAhead).bind ?_
        · omega
        · rw [if_pos wrong]
          exact runs_pure _
      · rw [List.append_nil]
        exact loaded
  | @link known left length target name rest entries short small right others ih =>
      rw [Entry.encode, List.append_assoc] at ahead
      have next : Runs (Allowed module (start, finish)) (reader.next memory) _ :=
        PackageReader.next_link position (more ▸ Nat.succ_ne_zero _) inside short small ahead
      have named := PackageReader.points_of_fields ahead.back
      have restAhead := ahead.back.back
      rw [length_word] at named restAhead
      obtain ⟨f, found⟩ : ∃ f, files_[target]? = some f := by
        rw [← count] at right
        exact ⟨_, List.getElem?_eq_getElem right⟩
      have added : Loaded memory (before ++ [.link length name target]) _ :=
        .link loaded named found
      have counted (file : InitrdFile) : (files_ ++ [file]).length = known + 1 := by
        rw [List.length_append, count]
        rfl
      have fewer : reader.files_left_ - 1 = left := by omega
      obtain ⟨all, runs, allLoaded⟩ := @ih _ ⟨some _, _, _, _⟩ _ _ added (counted _) rfl fewer
        (by omega) restAhead
      refine ⟨all, next.bind ?_, ?_⟩
      · rw [initRound_link, found]
        exact runs
      · rw [List.append_assoc] at allLoaded
        exact allLoaded
  | @file known left name contents rest entries short fits others ih =>
      rw [Entry.encode, List.append_assoc, List.append_assoc] at ahead
      have small : (CRC32.compute contents).toNat < 2 ^ 32 := (CRC32.compute contents).toNat_lt
      have next : Runs (Allowed module (start, finish)) (reader.next memory) _ :=
        PackageReader.next_file position (more ▸ Nat.succ_ne_zero _) inside short fits small ahead
      have named := PackageReader.points_of_fields ahead.back
      have contentsAhead := ahead.back.back
      have restAhead := contentsAhead.back
      rw [length_word] at named contentsAhead restAhead
      have filled : PointsTo memory _ contents := ⟨_, rfl, contentsAhead.front⟩
      have added := Loaded.file loaded named filled
      have counted (file : InitrdFile) : (files_ ++ [file]).length = known + 1 := by
        rw [List.length_append, count]
        rfl
      have fewer : reader.files_left_ - 1 = left := by omega
      obtain ⟨all, runs, allLoaded⟩ := @ih _ ⟨some _, _, _, _⟩ _ _ added (counted _) rfl fewer
        (by omega) restAhead
      refine ⟨all, next.bind ?_, ?_⟩
      · rw [initRound_file]
        refine (checksum_runs (by omega) contentsAhead).bind ?_
        rw [if_neg (not_not.mpr rfl)]
        exact runs
      · rw [List.append_assoc] at allLoaded
        exact allLoaded

/-- **Bytes that are read within bounds are in the format.** -/
theorem parses_of_within {left pos : ℕ} {reader : PackageReader} {files_ : List InitrdFile}
    {data : List UInt8} (position : reader.next_ = some pos) (more : reader.files_left_ = left)
    (inside : start ≤ pos) (ahead : Ahead memory finish pos data)
    (within : Within (Allowed module (start, finish)) (initLoop memory (left + 1) reader files_)) :
    ∃ entries, Parses files_.length left data entries := by
  induction left generalizing pos reader files_ data with
  | zero => exact ⟨[], .done _ _⟩
  | succ left ih =>
      have nonzero : reader.files_left_ ≠ 0 := more ▸ Nat.succ_ne_zero left
      have fewer : reader.files_left_ - 1 = left := by omega
      have counted (file : InitrdFile) : (files_ ++ [file]).length = files_.length + 1 := by
        rw [List.length_append]
        rfl
      rw [initLoop, within_bind] at within
      obtain ⟨nextWithin, others⟩ := within
      rw [PackageReader.next_eq_nextAt position nonzero,
        PackageReader.within_nextAt_iff reader ahead inside] at nextWithin
      obtain ⟨type, rest, small, rfl, unknown | ⟨length, name, content, back, fields⟩⟩ := nextWithin
      · exact ⟨[], .unknownType small unknown⟩
      · obtain ⟨lengthSmall, short, contentSmall, rfl⟩ := fields
        by_cases isLink : type = LINK
        · subst isLink
          have next : Runs (Allowed module (start, finish)) (reader.next memory) _ :=
            PackageReader.next_link position nonzero inside short contentSmall ahead
          have restAhead := ahead.back.back
          rw [length_word] at restAhead
          rw [next.2, initRound_link] at others
          by_cases right : content < files_.length
          · rw [List.getElem?_eq_getElem right] at others
            obtain ⟨entries, parses⟩ := ih rfl fewer (by omega) restAhead others
            rw [counted] at parses
            have whole : Parses _ _ _ (.link length name content :: entries) :=
              .link short contentSmall right parses
            rw [Entry.encode, List.append_assoc] at whole
            exact ⟨_, whole⟩
          · exact ⟨[], .wrongLink short contentSmall (Nat.le_of_not_lt right)⟩
        · by_cases isFile : type = DEFAULT
          · subst isFile
            have next : Runs (Allowed module (start, finish)) (reader.next memory) _ :=
              PackageReader.next_file position nonzero inside short lengthSmall contentSmall ahead
            have contentsAhead := ahead.back.back
            rw [length_word] at contentsAhead
            rw [next.2, initRound_file, within_bind, within_act] at others
            obtain ⟨⟨-, room⟩, others⟩ := others
            obtain ⟨rest, rfl⟩ := contentsAhead.split room
            generalize filled : window memory (pos + 4 +
              (Entry.fields length name content).length) length = contents at *
            obtain rfl : contents.length = length := by
              rw [← filled, length_window]
            by_cases wrong : content ≠ (CRC32.compute contents).toNat
            · exact ⟨[], .wrongChecksum short lengthSmall contentSmall wrong⟩
            · rw [value_act, if_neg wrong] at others
              obtain rfl := not_not.mp wrong
              obtain ⟨entries, parses⟩ := ih rfl fewer (by omega) contentsAhead.back others
              rw [counted] at parses
              have whole := Parses.file short lengthSmall parses
              rw [Entry.encode, List.append_assoc, List.append_assoc] at whole
              exact ⟨_, whole⟩
          · exact ⟨[], .unknownType small ⟨isFile, isLink⟩⟩

/-! ## The index names and the entries -/

variable {inflated : Inflated} {data middle rest : List UInt8}

/-- **An inflated package in the format is loaded within bounds.** -/
theorem initInflated_runs {files_left : ℕ} {entries : List Entry}
    (ahead : Ahead inflated.memory (inflated.ptr + inflated.inflated_size) inflated.ptr data)
    (runtime : SkipsString data middle) (app : SkipsString middle rest)
    (parses : Parses 0 files_left rest entries) :
    ∃ all, Loaded inflated.memory entries all ∧
      Runs (Allowed module (inflated.ptr, inflated.ptr + inflated.inflated_size))
        (initInflated files_left inflated)
        (some ⟨all, (PackageReader.readString inflated.memory inflated.ptr).value.1,
          (PackageReader.readString inflated.memory
            (PackageReader.readString inflated.memory inflated.ptr).value.2).value.1,
          inflated.memory⟩) := by
  have appAhead := readString_ahead ahead runtime
  have restAhead := readString_ahead appAhead app
  have appInside := readString_le inflated.memory inflated.ptr
  have restInside := Nat.le_trans appInside (readString_le inflated.memory _)
  have runtimeWithin : Within (Allowed module _)
      (PackageReader.readString inflated.memory inflated.ptr) :=
    (within_readString_iff ahead le_rfl).mpr ⟨_, runtime⟩
  have appWithin : Within (Allowed module _) (PackageReader.readString inflated.memory
      (PackageReader.readString inflated.memory inflated.ptr).value.2) :=
    (within_readString_iff appAhead appInside).mpr ⟨_, app⟩
  generalize firstRead : (PackageReader.readString inflated.memory inflated.ptr).value = first at *
  generalize secondRead : (PackageReader.readString inflated.memory first.2).value = second at *
  have opened : Runs (Allowed module _) (PackageReader.opened files_left inflated)
      ⟨some second.2, files_left, first.1, second.1⟩ :=
    Runs.bind ⟨runtimeWithin, firstRead⟩ (Runs.bind ⟨appWithin, secondRead⟩ (runs_pure _))
  obtain ⟨all, runs, loaded⟩ : ∃ all, Runs (Allowed module _)
      (initLoop inflated.memory (files_left + 1) ⟨some second.2, files_left, first.1, second.1⟩ [])
        (some all) ∧ Loaded inflated.memory ([] ++ entries) all :=
    parses.runs .nil rfl rfl rfl restInside restAhead
  exact ⟨all, loaded, opened.bind (runs.bind (runs_pure _))⟩

/-- **Loading stays in the inflated buffer exactly when its bytes are in the format.** -/
theorem within_initInflated_iff {files_left : ℕ}
    (ahead : Ahead inflated.memory (inflated.ptr + inflated.inflated_size) inflated.ptr data) :
    Within (Allowed module (inflated.ptr, inflated.ptr + inflated.inflated_size))
        (initInflated files_left inflated) ↔
      ∃ middle rest entries, SkipsString data middle ∧ SkipsString middle rest ∧
        Parses 0 files_left rest entries := by
  constructor
  · intro within
    rw [initInflated, PackageReader.opened, within_bind, within_bind, within_bind, within_bind]
      at within
    obtain ⟨⟨runtimeWithin, appWithin, -⟩, loopWithin, -⟩ := within
    have appInside := readString_le inflated.memory inflated.ptr
    have restInside := Nat.le_trans appInside (readString_le inflated.memory _)
    obtain ⟨middle, runtime⟩ := (within_readString_iff ahead le_rfl).mp runtimeWithin
    have appAhead := readString_ahead ahead runtime
    obtain ⟨rest, app⟩ := (within_readString_iff appAhead appInside).mp appWithin
    have restAhead := readString_ahead appAhead app
    obtain ⟨entries, parses⟩ := parses_of_within rfl rfl restInside restAhead loopWithin
    exact ⟨middle, rest, entries, runtime, app, parses⟩
  · rintro ⟨middle, rest, entries, runtime, app, parses⟩
    obtain ⟨all, -, runs⟩ := @initInflated_runs module _ _ _ _ _ _ ahead runtime app parses
    exact runs.1

end Initrd

end JsOS.Kernel
