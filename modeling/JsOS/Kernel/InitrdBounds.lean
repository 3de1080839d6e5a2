import JsOS.Kernel.InitrdLoading

/-! # The bounds of the buffers

Which modules are read within their bounds. Nothing checks a bound but the loop that looks for a
package, and that one only where a word begins. When a package is inflated the range that is
handed over always reaches behind the module, since it begins behind the magic word and its
size leaves out less than what comes before it; so only modules in which no package gets
that far are safe. What the inflated bytes must be is what `Parses` says.
-/

namespace JsOS.Kernel

namespace Initrd

open ByteMemory Traced

/-! ## Modules without a package to inflate -/

/-- Bytes that differ from the expected ones somewhere, as far as they are compared. -/
inductive Differs : List UInt8 → List UInt8 → Prop
  | here {expected byte : UInt8} {others rest : List UInt8} (different : byte ≠ expected) :
      Differs (expected :: others) (byte :: rest)
  | later {expected : UInt8} {others rest : List UInt8} (differs : Differs others rest) :
      Differs (expected :: others) (expected :: rest)

/-- The bytes behind the letters lead to a refusal: of an old format, of another version of the
kernel, or for lack of memory. -/
inductive Refused (platform : Platform) : List UInt8 → Prop
  | oldFormat {old_count : ℕ} {rest : List UInt8} (small : old_count < 2 ^ 32)
      (old : old_count ≠ 0) : Refused platform (word old_count ++ rest)
  | otherVersion {kernelVer : ℕ} {rest : List UInt8} (small : kernelVer < 2 ^ 32)
      (other : kernelVer ≠ getVersionNumber) :
      Refused platform (word 0 ++ (word kernelVer ++ rest))
  | outOfMemory {files_left inflated_size : ℕ} {rest : List UInt8} (few : files_left < 2 ^ 32)
      (small : inflated_size < 2 ^ 32) (full : platform.malloc inflated_size = none) :
      Refused platform (word 0 ++ (word getVersionNumber ++
        (word files_left ++ (word inflated_size ++ rest))))

/-- **No package is inflated.** The bytes are words up to a package that is refused, or to their
end. -/
inductive Unopened (platform : Platform) : List UInt8 → Prop
  | nothing : Unopened platform []
  | otherWord {value : ℕ} {rest : List UInt8} (small : value < 2 ^ 32)
      (other : value ≠ PACKAGE_MAGIC) (later : Unopened platform rest) :
      Unopened platform (word value ++ rest)
  | otherLetters {rest : List UInt8} (differs : Differs PCKG rest)
      (later : Unopened platform rest) : Unopened platform (word PACKAGE_MAGIC ++ rest)
  | refused {rest : List UInt8} (refused : Refused platform rest) :
      Unopened platform (word PACKAGE_MAGIC ++ (PCKG ++ rest))

variable {memory : ℕ → UInt8} {platform : Platform} {inflated : ℕ × ℕ}
  {start finish pos len : ℕ} {data : List UInt8}

/-! ## The letters -/

theorem within_readWord :
    Within (Allowed (start, finish) inflated) (readUint32BE .module memory pos) ↔
      start ≤ pos ∧ pos + 4 ≤ finish :=
  within_act _ _

/-- Letters are compared within bounds exactly when they are there, or differ before the end. -/
theorem within_matchBytes_iff {expected : List UInt8} (ahead : Ahead memory finish pos data)
    (inside : start ≤ pos) :
    Within (Allowed (start, finish) inflated) (matchBytes memory expected pos) ↔
      Differs expected data ∨ ∃ rest, data = expected ++ rest := by
  induction expected generalizing pos data with
  | nil => exact iff_of_true (within_pure true) (.inr ⟨data, rfl⟩)
  | cons byte others ih =>
      rw [matchBytes, within_bind, readByte, within_act, value_act]
      cases data with
      | nil =>
          have reaches := ahead.reaches
          refine iff_of_false (fun both => ?_) ?_
          · have room : pos + 1 ≤ finish := both.1.2
            rw [List.length_nil] at reaches
            omega
          · rintro (differs | ⟨rest, same⟩)
            · cases differs
            · cases same
      | cons first data =>
          have here : memory pos = first := (holds_cons.mp ahead.holds).1
          have tail : Ahead memory finish (pos + 1) data := @Ahead.back _ _ _ [first] _ ahead
          have room : Allowed (start, finish) inflated (.access .module pos 1) :=
            ⟨inside, @Ahead.front_le _ _ _ [first] data ahead⟩
          rw [and_iff_right room, here]
          by_cases different : first ≠ byte
          · rw [if_pos different]
            exact iff_of_true (within_pure false) (.inl (.here different))
          · obtain rfl := not_not.mp different
            rw [if_neg different, ih tail (Nat.le_add_right_of_le inside)]
            constructor
            · rintro (differs | ⟨rest, rfl⟩)
              · exact .inl (.later differs)
              · exact .inr ⟨rest, rfl⟩
            · rintro (differs | ⟨rest, same⟩)
              · cases differs with
                | here different => exact absurd rfl different
                | later differs => exact .inl differs
              · exact .inr ⟨rest, (List.cons.inj same).2⟩

theorem matchBytes_differs {expected : List UInt8} (differs : Differs expected data)
    (ahead : Ahead memory finish pos data) : (matchBytes memory expected pos).value = false := by
  rw [← Bool.not_eq_true, matchBytes_value]
  induction differs generalizing pos with
  | here different =>
      intro held
      exact different ((holds_cons.mp ahead.holds).1.symm.trans (holds_cons.mp held).1)
  | @later expected others rest differs ih =>
      intro held
      have tail : Ahead memory finish (pos + 1) rest := @Ahead.back _ _ _ [expected] _ ahead
      exact ih tail (holds_cons.mp held).2

/-! ## Opening a package -/

/-- What a word ahead gives. -/
theorem readWord_ahead {number : ℕ} {rest : List UInt8} (small : number < 2 ^ 32)
    (ahead : Ahead memory finish pos (word number ++ rest)) :
    (readUint32BE .module memory pos).value = number ∧ pos + 4 ≤ finish ∧
      Ahead memory finish (pos + 4) rest := by
  have back := ahead.back
  have room := ahead.front_le
  rw [length_word] at back room
  exact ⟨(holds_word_iff small).mp ahead.front, room, back⟩

/-- A read of a word within bounds, before anything else, is one of a word that is there. -/
theorem within_readWord_bind {α : Type} (ahead : Ahead memory finish pos data)
    (inside : start ≤ pos) (next : ℕ → Reading α) :
    Within (Allowed (start, finish) inflated) (readUint32BE .module memory pos >>= next) ↔
      ∃ number rest, number < 2 ^ 32 ∧ data = word number ++ rest ∧
        Ahead memory finish (pos + 4) rest ∧
          Within (Allowed (start, finish) inflated) (next number) := by
  rw [within_bind, within_readWord]
  constructor
  · rintro ⟨⟨-, room⟩, others⟩
    obtain ⟨number, rest, small, rfl⟩ := word_ahead ahead room
    obtain ⟨read, -, back⟩ := readWord_ahead small ahead
    rw [read] at others
    exact ⟨number, rest, small, rfl, back, others⟩
  · rintro ⟨number, rest, small, rfl, -, others⟩
    obtain ⟨read, room, -⟩ := readWord_ahead small ahead
    rw [read]
    exact ⟨⟨inside, room⟩, others⟩

/-- **Opening a package stays within the module exactly when it is refused.** The range to inflate
ends as far behind the module as its header is from the start. -/
theorem within_openPackage_iff (ahead : Ahead memory finish (pos + 4) data)
    (inside : start < pos) (reach : finish = start + len) (machine : len < 2 ^ 64) :
    Within (Allowed (start, finish) inflated)
        (openPackage memory platform len pos) ↔ Refused platform data := by
  have before : start ≤ pos := Nat.le_of_lt inside
  rw [openPackage, within_readWord_bind ahead (by omega)]
  constructor
  · rintro ⟨old_count, rest, small, rfl, ahead, others⟩
    by_cases old : old_count ≠ 0
    · exact .oldFormat small old
    · rw [if_neg old, within_readWord_bind ahead (by omega)] at others
      obtain rfl := not_not.mp old
      obtain ⟨kernelVer, rest, small, rfl, ahead, others⟩ := others
      by_cases other : kernelVer ≠ getVersionNumber
      · exact .otherVersion small other
      · rw [if_neg other, within_readWord_bind ahead (by omega)] at others
        obtain rfl := not_not.mp other
        obtain ⟨files_left, rest, few, rfl, ahead, others⟩ := others
        rw [within_readWord_bind ahead (by omega)] at others
        obtain ⟨inflated_size, rest, small, rfl, ahead, others⟩ := others
        cases allocated : platform.malloc inflated_size with
        | none => exact .outOfMemory few small allocated
        | some ptr =>
            rw [allocated] at others
            dsimp only at others
            rw [within_bind, within_act] at others
            obtain ⟨⟨-, over_⟩, -⟩ := others
            have room := ahead.reaches
            dsimp only at over_
            omega
  · intro refused
    cases refused with
    | @oldFormat old_count rest small old =>
        refine ⟨old_count, rest, small, rfl, (readWord_ahead small ahead).2.2, ?_⟩
        rw [if_pos old]
        exact within_pure _
    | @otherVersion kernelVer rest small other =>
        have behind := (readWord_ahead (by decide) ahead).2.2
        refine ⟨0, _, by decide, rfl, behind, ?_⟩
        rw [if_neg (not_not.mpr rfl),
          within_readWord_bind behind (by omega)]
        refine ⟨kernelVer, rest, small, rfl, (readWord_ahead small behind).2.2, ?_⟩
        rw [if_pos other]
        exact within_pure _
    | @outOfMemory files_left inflated_size rest few small full =>
        have behind := (readWord_ahead (by decide) ahead).2.2
        have later := (readWord_ahead (by decide) behind).2.2
        have last := (readWord_ahead few later).2.2
        refine ⟨0, _, by decide, rfl, behind, ?_⟩
        rw [if_neg (not_not.mpr rfl),
          within_readWord_bind behind (by omega)]
        refine ⟨getVersionNumber, _, by decide, rfl, later, ?_⟩
        rw [if_neg (not_not.mpr rfl),
          within_readWord_bind later (by omega)]
        refine ⟨files_left, _, few, rfl, last, ?_⟩
        rw [within_readWord_bind last (by omega)]
        refine ⟨inflated_size, rest, small, rfl, (readWord_ahead small last).2.2, ?_⟩
        rw [full]
        exact within_pure _

/-! ## The search -/

/-- **The module is searched within its bounds exactly when no package in it is inflated.** -/
theorem within_search_iff {fuel : ℕ} (ahead : Ahead memory finish pos data)
    (inside : start ≤ pos) (reach : finish = start + len) (machine : len < 2 ^ 64) (enough : data.length ≤ fuel) :
    Within (Allowed (start, finish) inflated)
        (search memory platform len finish fuel pos) ↔ Unopened platform data := by
  induction fuel generalizing pos data with
  | zero =>
      obtain rfl := List.eq_nil_of_length_eq_zero (Nat.le_zero.mp enough)
      exact iff_of_true (within_pure _) .nothing
  | succ fuel ih =>
      have reaches := ahead.reaches
      have further : start ≤ pos + 4 := Nat.le_add_right_of_le inside
      have later {number : ℕ} {rest : List UInt8} (same : data = word number ++ rest) :
          rest.length ≤ fuel := by
        rw [same, List.length_append, length_word] at enough
        omega
      rw [search]
      by_cases more : pos < finish
      · rw [if_pos more, within_readWord_bind ahead inside]
        constructor
        · rintro ⟨value, rest, small, same, behind, others⟩
          have short := later same
          subst same
          by_cases other : value ≠ PACKAGE_MAGIC
          · rw [if_pos other, ih behind further short] at others
            exact .otherWord small other others
          · rw [if_neg other, within_bind, within_matchBytes_iff behind further] at others
            obtain rfl := not_not.mp other
            obtain ⟨differs | ⟨rest, rfl⟩, others⟩ := others
            · rw [matchBytes_differs differs behind] at others
              exact .otherLetters differs ((ih behind further short).mp others)
            · rw [matchBytes_value.mpr behind.front] at others
              exact .refused ((within_openPackage_iff behind.back (by omega) reach machine).mp others)
        · intro unopened
          cases unopened with
          | nothing =>
              rw [List.length_nil] at reaches
              omega
          | @otherWord value rest small other unopened =>
              have behind := (readWord_ahead small ahead).2.2
              refine ⟨value, rest, small, rfl, behind, ?_⟩
              rw [if_pos other]
              exact (ih behind further (later rfl)).mpr unopened
          | @otherLetters rest differs unopened =>
              have behind := (readWord_ahead (by decide) ahead).2.2
              refine ⟨PACKAGE_MAGIC, rest, by decide, rfl, behind, ?_⟩
              rw [if_neg (not_not.mpr rfl), within_bind, within_matchBytes_iff behind further,
                matchBytes_differs differs behind]
              exact ⟨.inl differs, (ih behind further (later rfl)).mpr unopened⟩
          | @refused rest refused =>
              have behind := (readWord_ahead (by decide) ahead).2.2
              refine ⟨PACKAGE_MAGIC, _, by decide, rfl, behind, ?_⟩
              rw [if_neg (not_not.mpr rfl), within_bind, within_matchBytes_iff behind further,
                matchBytes_value.mpr behind.front]
              exact ⟨.inr ⟨rest, rfl⟩,
                (within_openPackage_iff behind.back (by omega) reach machine).mpr refused⟩
      · rw [if_neg more]
        obtain rfl : data = [] := by
          apply List.eq_nil_of_length_eq_zero
          omega
        exact iff_of_true (within_pure _) .nothing

/-! ## The whole module -/

/-- A package that is opened within the module is not inflated. -/
theorem openPackage_none (inside : start < pos) (reach : finish = start + len) (machine : len < 2 ^ 64)
    (within : Within (Allowed (start, finish) inflated)
      (openPackage memory platform len pos)) :
    (openPackage memory platform len pos).value.2 = none := by
  rw [openPackage, within_bind] at within
  rw [openPackage, value_bind]
  by_cases old : (readUint32BE .module memory (pos + 4)).value ≠ 0
  · rw [if_pos old]
    rfl
  · rw [if_neg old, within_bind] at within
    rw [if_neg old, value_bind]
    by_cases other : (readUint32BE .module memory (pos + 8)).value ≠ getVersionNumber
    · rw [if_pos other]
      rfl
    · rw [if_neg other, within_bind, within_bind] at within
      obtain ⟨-, -, -, room, within⟩ := within
      rw [within_readWord] at room
      rw [if_neg other, value_bind, value_bind]
      cases allocated : platform.malloc (readUint32BE .module memory (pos + 16)).value with
      | none => rfl
      | some ptr =>
          rw [allocated] at within
          dsimp only at within
          rw [within_bind, within_act] at within
          obtain ⟨⟨-, beyond⟩, -⟩ := within
          dsimp only at beyond
          omega

theorem search_none {fuel : ℕ} (inside : start ≤ pos) (reach : finish = start + len) (machine : len < 2 ^ 64)
    (within : Within (Allowed (start, finish) inflated)
      (search memory platform len finish fuel pos)) :
    (search memory platform len finish fuel pos).value.2 = none := by
  induction fuel generalizing pos with
  | zero => rfl
  | succ fuel ih =>
      have further : start ≤ pos + 4 := Nat.le_add_right_of_le inside
      rw [search] at within ⊢
      by_cases more : pos < finish
      · rw [if_pos more, within_bind] at within
        rw [if_pos more, value_bind]
        by_cases other : (readUint32BE .module memory pos).value ≠ PACKAGE_MAGIC
        · rw [if_pos other] at within ⊢
          exact ih further within.2
        · rw [if_neg other, within_bind] at within
          rw [if_neg other, value_bind]
          cases letters : (matchBytes memory PCKG (pos + 4)).value with
          | false =>
              rw [letters] at within
              exact ih further within.2.2
          | true =>
              rw [letters] at within
              exact openPackage_none (by omega) reach machine within.2.2
      · rw [if_neg more]
        rfl

theorem within_init_iff (machine : len < 2 ^ 64) :
    Within (Allowed (start, start + len) inflated) (init memory platform start len) ↔
      Unopened platform (window memory (alignPtr start) (start + len - alignPtr start)) := by
  have inside : start ≤ alignPtr start := by
    rw [alignPtr]
    omega
  have searched : Within (Allowed (start, start + len) inflated)
      (findPackage memory platform start len) ↔
        Unopened platform (window memory (alignPtr start) (start + len - alignPtr start)) := by
    by_cases short : alignPtr start ≤ start + len
    · refine within_search_iff (ahead_window short) inside rfl machine ?_
      rw [length_window]
      omega
    · have nothing : start + len - alignPtr start = 0 := by omega
      have ended : findPackage memory platform start len = pure (0, none) := by
        rw [findPackage]
        cases len with
        | zero => rfl
        | succ len =>
            rw [search]
            exact if_neg (by omega)
      rw [nothing, ended]
      exact iff_of_true (within_pure _) .nothing
  rw [init, within_bind, ← searched]
  refine and_iff_left_of_imp fun within => ?_
  have closed : (findPackage memory platform start len).value.2 = none :=
    search_none inside rfl machine within
  rw [closed]
  exact within_pure _

/-- **Loading stays inside its buffers exactly when no package is inflated.** Behind that, the
reads of an inflated package stay in its buffer, and each file has a name, exactly when its bytes
are the index names and complete entries up to the first malformed one; and then the files
are those of the entries before it. -/
theorem init_staysInside_iff (memory : ℕ → UInt8) (platform : Platform) (start len : ℕ)
    (inflated : ℕ × ℕ) (machine : len < 2 ^ 64) :
    (Within (Allowed (start, start + len) inflated) (init memory platform start len) ↔
      Unopened platform (window memory (alignPtr start) (start + len - alignPtr start))) ∧
    ∀ files_left package,
      (Within (Allowed (start, start + len)
          (package.ptr, package.ptr + package.inflated_size)) (initInflated files_left package) ↔
        ∃ middle rest entries,
          SkipsString (window package.memory package.ptr package.inflated_size) middle ∧
            SkipsString middle rest ∧ Parses 0 files_left rest entries) ∧
      ∀ middle rest entries,
        SkipsString (window package.memory package.ptr package.inflated_size) middle →
          SkipsString middle rest → Parses 0 files_left rest entries →
            ∃ initrd, (initInflated files_left package).value = some initrd ∧
              Loaded initrd.memory entries initrd.files_ := by
  refine ⟨within_init_iff machine, fun files_left package => ?_⟩
  have ahead : Ahead package.memory (package.ptr + package.inflated_size) package.ptr
      (window package.memory package.ptr package.inflated_size) :=
    ⟨by rw [length_window], holds_window _ _ _⟩
  refine ⟨within_initInflated_iff ahead, fun middle rest entries runtime app parses => ?_⟩
  obtain ⟨all, loaded, runs⟩ :=
    @initInflated_runs (start, start + len) _ _ _ _ _ _ ahead runtime app parses
  exact ⟨_, runs.2, loaded⟩

theorem init_zeros_staysInside :
    Within (Allowed (0x100000, 0x100000 + 8) (0, 0))
      (init (fun _ => 0) storedPlatform 0x100000 8) := by
  refine (init_staysInside_iff (fun _ => 0) storedPlatform 0x100000 8 (0, 0) (by decide)).1.mpr ?_
  have last : Unopened storedPlatform (word 0 ++ []) :=
    .otherWord (by decide) (by decide) .nothing
  exact @Unopened.otherWord _ 0 _ (by decide) (by decide) last

/-- Even a module with a package in the format hands over bytes behind its end. -/
theorem samplePackage_overrun :
    ¬Within (Allowed
        (0x100000, 0x100000 + (carrier samplePackage [0, 0, 0, 0] sampleStream [0]).length)
        (0x200000, 0x200000 + samplePackage.encode.length))
      (init sampleMemory storedPlatform 0x100000
        (carrier samplePackage [0, 0, 0, 0] sampleStream [0]).length) := by
  decide +kernel

end Initrd

end JsOS.Kernel
