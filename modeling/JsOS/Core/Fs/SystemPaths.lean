import JsOS.Core.Fs.Partitions
import Mathlib.Data.List.Nodup

/-! # Paths to the initial file system

`readdir` and `readFile` take the paths that begin with `/system` to the initial file system, and
the rest to the block devices. The test compares the first seven characters, so that it also takes
the paths of a name that only begins with `system`. A file that is not there is `null` to the
kernel, and no `Buffer` can be made from it.
-/

namespace JsOS.Core.Fs

open NumericString (Units units)

/-! ## The initial file system -/

def isHighSurrogate (unit : BitVec 16) : Bool := 0xD800 ≤ unit && unit ≤ 0xDBFF

def isLowSurrogate (unit : BitVec 16) : Bool := 0xDC00 ≤ unit && unit ≤ 0xDFFF

/-- A string as UTF-8 has it: a surrogate without its pair is replaced. -/
def toWellFormed : Units → Units
  | [] => []
  | [unit] => if isHighSurrogate unit || isLowSurrogate unit then [0xFFFD] else [unit]
  | unit :: next :: rest =>
      if isHighSurrogate unit && isLowSurrogate next then unit :: next :: toWellFormed rest
      else if isHighSurrogate unit || isLowSurrogate unit then 0xFFFD :: toWellFormed (next :: rest)
      else unit :: toWellFormed (next :: rest)

/-- A string as C has it. -/
def cString (string : Units) : Units := (toWellFormed string).takeWhile fun unit => unit ≠ 0

/-- A file of the initial file system. Its name is a string of C, in UTF-8. -/
structure InitrdFile where
  name : Units
  content : List UInt8
  cString_name : cString name = name

/-- `initrdListFiles`. -/
def initrdListFiles (files : List InitrdFile) : List Units := files.map InitrdFile.name

/-- `initrdReadFileBuffer`, which is `null` if there is no file of that name. -/
def initrdReadFileBuffer (files : List InitrdFile) (filename : Units) : Option (List UInt8) :=
  (files.find? fun file => file.name = cString filename).map InitrdFile.content

/-! ## Reading a directory -/

/-- An element is added to a `Set`. -/
def add (set : List Units) (name : Units) : List Units := if name ∈ set then set else set ++ [name]

/-- The names that `readdir` gives for a system path. -/
def systemNames (files : List Units) (extpath : Units) : List Units :=
  let dirs := (files.filter fun findPath =>
    findPath.take (extpath.length + 1) = extpath ++ [slash]).map fun findPath =>
      ((findPath.drop (extpath.length + 1)).splitOn slash).headD []
  (dirs.foldl add []).mergeSort fun first second => first ≤ second

/-! ## Reading a file -/

/-- An error that a callback gets from `readFile`. -/
inductive ReadError where
  | path (error : PathError)
  /-- `Is a directory` -/
  | directory
  /-- An error of the file system or of the device. -/
  | fileSystem (message : Units)
  deriving DecidableEq

/-- What the initial file system does to the caller of `readFile`. -/
inductive Reply (Content : Type) where
  | content (content : Content)
  | error (error : ReadError)
  | throws

/-- What `readFile` does: the initial file system replies, its callback gets an error, or a file
system is asked, on the device of the path. -/
inductive Reading (Content : Type) where
  | initrd (reply : Reply Content)
  | fails (error : ReadError)
  | later (resolved : Resolved)

/-- `readFile`. `Buffer.from(null)` throws. -/
def readFile {Content : Type} (devices : List Device) (initrdReadFile : Units → Option Content)
    (path : Units) : Reading Content :=
  if isSystemPath path then
    match initrdReadFile (path.drop 7) with
    | none => .initrd .throws
    | some content => .initrd (.content content)
  else
    match resolvePath devices path with
    | .error error => .fails (.path error)
    | .ok resolved => if resolved.level ≥ 3 then .later resolved else .fails .directory

/-! ## What is meant -/

/-- `system`. -/
def system : Units := units "system"

/-- The first component of an absolute path. -/
def firstComponent (path : Units) : Units := (path.drop 1).takeWhile fun unit => unit ≠ slash

/-- A path is that of a directory of the initial file system, with or without a slash at its end. -/
def PathOf (directory path : Units) : Prop :=
  path = units "/system" ++ directory ∧ directory.getLast? ≠ some slash ∨
    path = units "/system" ++ directory ++ [slash]

/-- The names are the first components of the files below a directory, sorted and each once. -/
structure Lists (files : List Units) (directory : Units) (names : List Units) : Prop where
  sorted : names.Pairwise (· < ·)
  exactly : ∀ name, name ∈ names ↔
    ∃ below, directory ++ slash :: below ∈ files ∧ name = below.takeWhile fun unit => unit ≠ slash

/-- `readdir` is taken to the block device of the first component. -/
structure ReaddirOnDevice (devices : List Device) (path : Units) : Prop where
  unknown : getDeviceByName devices (firstComponent path) = none →
    readdir devices path = .error (.noDevice (firstComponent path))
  partitions : ∀ device, getDeviceByName devices (firstComponent path) = some device →
    ∀ names, readdir devices path = .names names →
      names = partitionNames (getPartitions device.sector0)
  filesystem : ∀ device, getDeviceByName devices (firstComponent path) = some device →
    ∀ partition rest, readdir devices path = .filesystem partition rest →
      partition ∈ getPartitions device.sector0

/-- `readFile` is taken to the block device of the first component. -/
structure ReadFileOnDevice (devices : List Device) (path : Units) : Prop where
  unknown : getDeviceByName devices (firstComponent path) = none →
    ∀ Content initrdReadFile, @readFile Content devices initrdReadFile path =
      .fails (.path (.noDevice (firstComponent path)))
  filesystem : ∀ device, getDeviceByName devices (firstComponent path) = some device →
    ∀ Content initrdReadFile resolved, @readFile Content devices initrdReadFile path =
      .later resolved → resolved.device = some device

/-- **What is meant by `readdir`** of a path. -/
structure ReaddirRight (devices : List Device) (files : List InitrdFile) (path : Units) : Prop where
  routed : (∃ extpath, readdir devices path = .system extpath) ↔ firstComponent path = system
  onDevice : firstComponent path ≠ system → path ≠ [slash] → ReaddirOnDevice devices path
  lists : firstComponent path = system → ∀ directory, PathOf directory path →
    ∃ extpath, readdir devices path = .system extpath ∧
      Lists (initrdListFiles files) directory (systemNames (initrdListFiles files) extpath)

/-- **What is meant by `readFile`** of a path. -/
structure ReadFileRight (devices : List Device) (files : List InitrdFile) (path : Units) :
    Prop where
  routed : (∃ reply, readFile devices (initrdReadFileBuffer files) path = .initrd reply) ↔
    firstComponent path = system
  onDevice : firstComponent path ≠ system → path ≠ [slash] → ReadFileOnDevice devices path
  listed : firstComponent path = system →
    ∀ file, (files.find? fun file => file.name = path.drop 7) = some file →
      readFile devices (initrdReadFileBuffer files) path = .initrd (.content file.content)
  missing : firstComponent path = system → path.drop 7 ∉ initrdListFiles files →
    ∃ error, readFile devices (initrdReadFileBuffer files) path = .initrd (.error error)

/-- A name that begins with `system` and is longer. -/
def Longer (name : Units) : Prop := system <+: name ∧ name ≠ system

instance (name : Units) : Decidable (Longer name) :=
  inferInstanceAs (Decidable (system <+: name ∧ name ≠ system))

/-! ## Components -/

theorem slash_notMem_system : slash ∉ system := by decide

theorem units_system : units "/system" = slash :: system := by decide

theorem firstComponent_cons (rest : Units) :
    firstComponent (slash :: rest) = rest.takeWhile fun unit => unit ≠ slash := rfl

/-- The test takes the paths whose first component begins with `system`. -/
theorem isSystemPath_iff {path : Units} (absolute : path.head? = some slash) :
    isSystemPath path = true ↔ system <+: firstComponent path := by
  obtain ⟨rest, rfl⟩ := List.head?_eq_some_iff.mp absolute
  have seven : (slash :: rest).take 7 = slash :: rest.take 6 := rfl
  have six : system.length = 6 := rfl
  unfold isSystemPath
  rw [decide_eq_true_iff, units_system, seven, List.cons.injEq, firstComponent_cons]
  constructor
  · rintro ⟨-, taken⟩
    refine ⟨(rest.drop 6).takeWhile fun unit => unit ≠ slash, ?_⟩
    conv_rhs => rw [← List.take_append_drop 6 rest, taken]
    rw [List.takeWhile_append_of_pos]
    intro unit member
    exact decide_eq_true fun same => slash_notMem_system (same ▸ member)
  · intro isPrefix
    have whole := isPrefix.trans (List.takeWhile_prefix _)
    refine ⟨rfl, ?_⟩
    rw [← six]
    exact (List.prefix_iff_eq_take.mp whole).symm

/-- A path whose first component is `system` is the name of what it names behind `/system`. -/
theorem isSystemPath_of_firstComponent {path : Units} (absolute : path.head? = some slash)
    (first : firstComponent path = system) : isSystemPath path = true :=
  (isSystemPath_iff absolute).mpr (first ▸ List.prefix_rfl)

theorem splitOn_first (string : Units) :
    ∃ rest, string.splitOn slash = (string.takeWhile fun unit => unit ≠ slash) :: rest := by
  have plain : slash ∉ string.takeWhile fun unit => unit ≠ slash := by
    intro member
    have different := List.mem_takeWhile_imp member
    simp at different
  have split := @List.takeWhile_append_dropWhile _ (fun unit => decide (unit ≠ slash)) string
  cases behind : string.dropWhile fun unit => unit ≠ slash with
  | nil =>
      rw [behind, List.append_nil] at split
      refine ⟨[], ?_⟩
      rw [split] at plain ⊢
      exact List.splitOn_eq_singleton plain
  | cons unit rest =>
      have isSlash : unit = slash := by
        have stops := @List.head_dropWhile_not _ (fun unit => decide (unit ≠ slash)) string
          (by rw [behind]; exact List.cons_ne_nil _ _)
        simp only [behind, List.head_cons] at stops
        exact not_not.mp (of_decide_eq_false stops)
      subst unit
      refine ⟨rest.splitOn slash, ?_⟩
      conv_lhs => rw [← split, behind]
      exact List.splitOn_append_cons_self_of_not_mem plain rest

/-- The parts of an absolute path begin with its first component. -/
theorem splitPath_absolute {path : Units} (absolute : path.head? = some slash)
    (more : path ≠ [slash]) : ∃ rest, splitPath path = [] :: firstComponent path :: rest := by
  obtain ⟨tail, rfl⟩ := List.head?_eq_some_iff.mp absolute
  obtain ⟨rest, split⟩ := splitOn_first tail
  have parts : (slash :: tail).splitOn slash = [] :: firstComponent (slash :: tail) :: rest := by
    rw [← List.nil_append (slash :: tail),
      List.splitOn_append_cons_self_of_not_mem List.not_mem_nil, split]
    rfl
  unfold splitPath
  dsimp only
  rw [parts]
  split
  · cases rest with
    | nil =>
        next lastEmpty =>
          have first : firstComponent (slash :: tail) = [] := Option.some_injective _ lastEmpty
          have joined := @List.intercalate_splitOn _ tail _ _ slash
          rw [split, ← firstComponent_cons, first] at joined
          subst joined
          exact absurd rfl more
    | cons next rest => exact ⟨_, rfl⟩
  · exact ⟨rest, rfl⟩

section Routing

variable {devices : List Device} {path : Units}

theorem readdir_system_iff :
    (∃ extpath, readdir devices path = .system extpath) ↔ isSystemPath path = true := by
  unfold readdir
  constructor
  · rintro ⟨extpath, goes⟩
    by_contra other
    rw [if_neg other] at goes
    split at goes
    · cases goes
    · dsimp only at goes
      split at goes
      · cases goes
      · split at goes
        · cases goes
        · split at goes
          · cases goes
          · cases goes
  · intro system
    rw [if_pos system]
    exact ⟨_, rfl⟩

theorem readFile_initrd_iff {Content : Type} {initrdReadFile : Units → Option Content} :
    (∃ reply, readFile devices initrdReadFile path = .initrd reply) ↔ isSystemPath path = true := by
  unfold readFile
  constructor
  · rintro ⟨reply, goes⟩
    by_contra other
    rw [if_neg other] at goes
    split at goes
    · cases goes
    · split at goes
      · cases goes
      · cases goes
  · intro system
    rw [if_pos system]
    split
    · exact ⟨_, rfl⟩
    · exact ⟨_, rfl⟩

/-- Any other path than `/` is resolved at the device of its first component. -/
theorem resolvePath_first (absolute : path.head? = some slash) (more : path ≠ [slash]) :
    (getDeviceByName devices (firstComponent path) = none ∧
      resolvePath devices path = .error (.noDevice (firstComponent path))) ∨
    ∃ device, getDeviceByName devices (firstComponent path) = some device ∧
      ∀ resolved, resolvePath devices path = .ok resolved → resolved.device = some device := by
  obtain ⟨rest, split⟩ := splitPath_absolute absolute more
  unfold resolvePath
  rw [split]
  dsimp only
  rw [if_neg (not_not.mpr rfl)]
  cases found : getDeviceByName devices (firstComponent path) with
  | none => exact .inl ⟨rfl, rfl⟩
  | some device =>
      refine .inr ⟨device, rfl, ?_⟩
      intro resolved ok
      dsimp only at ok
      split at ok
      · obtain rfl := Except.ok.inj ok
        rfl
      · split at ok
        · cases ok
        · obtain rfl := Except.ok.inj ok
          rfl

/-- A directory that is not taken to the initial file system is taken to its device. -/
theorem readdirOnDevice (absolute : path.head? = some slash) (more : path ≠ [slash])
    (other : ¬isSystemPath path = true) : ReaddirOnDevice devices path := by
  rcases @resolvePath_first devices path absolute more with
    ⟨missing, refused⟩ | ⟨device, found, resolves⟩
  · constructor
    · intro _
      unfold readdir
      rw [if_neg other, refused]
    · intro device found
      cases missing.symm.trans found
    · intro device found
      cases missing.symm.trans found
  · constructor
    · intro missing
      cases found.symm.trans missing
    · intro device' same names goes
      obtain rfl := Option.some_injective _ (found.symm.trans same)
      unfold readdir at goes
      rw [if_neg other] at goes
      split at goes
      · cases goes
      · next resolved ok =>
          rw [resolves resolved ok] at goes
          dsimp only at goes
          split at goes
          · exact (Listing.names.inj goes).symm
          · split at goes
            · cases goes
            · cases goes
    · intro device' same partition rest goes
      obtain rfl := Option.some_injective _ (found.symm.trans same)
      unfold readdir at goes
      rw [if_neg other] at goes
      split at goes
      · cases goes
      · next resolved ok =>
          rw [resolves resolved ok] at goes
          dsimp only at goes
          split at goes
          · cases goes
          · split at goes
            · cases goes
            · next element =>
                obtain ⟨rfl, -⟩ := Listing.filesystem.inj goes
                exact mem_of_elementAt element

/-- A file that is not taken to the initial file system is taken to its device. -/
theorem readFileOnDevice (absolute : path.head? = some slash) (more : path ≠ [slash])
    (other : ¬isSystemPath path = true) : ReadFileOnDevice devices path := by
  rcases @resolvePath_first devices path absolute more with
    ⟨missing, refused⟩ | ⟨device, found, resolves⟩
  · constructor
    · intro _ Content initrdReadFile
      unfold readFile
      rw [if_neg other, refused]
    · intro device found
      cases missing.symm.trans found
  · constructor
    · intro missing
      cases found.symm.trans missing
    · intro device' same Content initrdReadFile resolved goes
      obtain rfl := Option.some_injective _ (found.symm.trans same)
      unfold readFile at goes
      rw [if_neg other] at goes
      split at goes
      · cases goes
      · next resolved' ok =>
          split at goes
          · obtain rfl := Reading.later.inj goes
            exact resolves _ ok
          · cases goes

end Routing

/-! ## Names -/

theorem mem_foldl_add {names set : List Units} {name : Units} :
    name ∈ names.foldl add set ↔ name ∈ set ∨ name ∈ names := by
  induction names generalizing set with
  | nil => simp
  | cons first rest inductionHypothesis =>
      rw [List.foldl_cons, inductionHypothesis, List.mem_cons, ← or_assoc]
      apply or_congr_left
      unfold add
      split
      · next present =>
          constructor
          · exact .inl
          · rintro (inSet | rfl)
            · exact inSet
            · exact present
      · rw [List.mem_append, List.mem_singleton]

theorem nodup_foldl_add {names set : List Units} (nodup : set.Nodup) :
    (names.foldl add set).Nodup := by
  induction names generalizing set with
  | nil => exact nodup
  | cons first rest inductionHypothesis =>
      rw [List.foldl_cons]
      apply inductionHypothesis
      unfold add
      split
      · exact nodup
      · next new =>
          refine List.nodup_append.mpr ⟨nodup, List.nodup_singleton _, ?_⟩
          rintro name member _ last rfl
          obtain rfl := List.mem_singleton.mp last
          exact new member

/-- A file is below a directory if its name begins with that of the directory and a slash. -/
theorem mem_below {files : List Units} {extpath findPath : Units} :
    findPath ∈ files.filter (fun findPath =>
        findPath.take (extpath.length + 1) = extpath ++ [slash]) ↔
      findPath ∈ files ∧ ∃ below, findPath = extpath ++ slash :: below := by
  have size : extpath.length + 1 = (extpath ++ [slash]).length := by
    rw [List.length_append, List.length_singleton]
  rw [List.mem_filter, decide_eq_true_iff, size, eq_comm, ← List.prefix_iff_eq_take]
  apply and_congr_right
  intro _
  constructor
  · rintro ⟨below, rfl⟩
    exact ⟨below, by rw [List.append_assoc, List.singleton_append]⟩
  · rintro ⟨below, rfl⟩
    exact ⟨below, by rw [List.append_assoc, List.singleton_append]⟩

/-- **The names of a directory** are the first components of the files below it. -/
theorem lists_systemNames (files : List Units) (extpath : Units) :
    Lists files extpath (systemNames files extpath) := by
  constructor
  · unfold systemNames
    dsimp only
    have ordered := @List.pairwise_mergeSort Units (fun first second => first ≤ second)
      (fun first second third le le' =>
        decide_eq_true (List.le_trans (of_decide_eq_true le) (of_decide_eq_true le')))
      (fun first second => by
        rw [Bool.or_eq_true, decide_eq_true_iff, decide_eq_true_iff]
        exact List.le_total first second)
    refine ((ordered _).and ((List.mergeSort_perm _ _).nodup_iff.mpr
      (nodup_foldl_add List.nodup_nil))).imp ?_
    rintro first second ⟨le, different⟩
    exact Std.lt_of_le_of_ne (of_decide_eq_true le) different
  · intro name
    have component (below : Units) :
        (((extpath ++ slash :: below).drop (extpath.length + 1)).splitOn slash).headD [] =
          below.takeWhile fun unit => unit ≠ slash := by
      obtain ⟨rest, split⟩ := splitOn_first below
      rw [List.drop_length_add_append, List.drop_succ_cons, List.drop_zero, split]
      rfl
    unfold systemNames
    rw [List.mem_mergeSort, mem_foldl_add, or_iff_right List.not_mem_nil, List.mem_map]
    constructor
    · rintro ⟨findPath, member, rfl⟩
      obtain ⟨listed, below, rfl⟩ := mem_below.mp member
      exact ⟨below, listed, component below⟩
    · rintro ⟨below, listed, rfl⟩
      exact ⟨_, mem_below.mpr ⟨listed, below, rfl⟩, component below⟩

section Right

variable {devices : List Device} {files : List InitrdFile} {path : Units}

/-- What a listed file's path reads. -/
theorem readFile_listed (system : isSystemPath path = true) {file : InitrdFile}
    (found : (files.find? fun file => file.name = path.drop 7) = some file) :
    readFile devices (initrdReadFileBuffer files) path = .initrd (.content file.content) := by
  have same : decide (file.name = path.drop 7) = true := by
    have holds := List.find?_some found
    exact holds
  have stays : cString (path.drop 7) = path.drop 7 := by
    rw [← of_decide_eq_true same]
    exact file.cString_name
  have read : initrdReadFileBuffer files (path.drop 7) = some file.content := by
    unfold initrdReadFileBuffer
    rw [stays, found, Option.map_some]
  unfold readFile
  rw [if_pos system, read]

/-- The initial file system gives no callback an error. -/
theorem readFile_ne_error (system : isSystemPath path = true) (error : ReadError) :
    readFile devices (initrdReadFileBuffer files) path ≠ .initrd (.error error) := by
  intro gives
  unfold readFile at gives
  rw [if_pos system] at gives
  split at gives
  · cases gives
  · cases gives

/-- What `readdir` takes for the name of a directory. -/
theorem readdir_pathOf (system : isSystemPath path = true) {directory : Units}
    (names : PathOf directory path) : readdir devices path = .system directory := by
  have seven : (units "/system").length = 7 := rfl
  unfold readdir
  rw [if_pos system, ← seven]
  rcases names with ⟨rfl, bare⟩ | rfl
  · have last : (units "/system" ++ directory).getLast? ≠ some slash := by
      rw [List.getLast?_append]
      cases found : directory.getLast? with
      | none => exact fun same => absurd same (by decide)
      | some unit =>
          rw [Option.some_or, ← found]
          exact bare
    rw [if_neg last, List.drop_left]
  · rw [List.getLast?_append, List.getLast?_singleton, Option.some_or, if_pos rfl,
      List.dropLast_concat, List.drop_left]

/-- The test is right exactly if the first component is no longer name. -/
theorem isSystemPath_iff_system (absolute : path.head? = some slash) :
    (isSystemPath path = true ↔ firstComponent path = system) ↔ ¬Longer (firstComponent path) := by
  rw [isSystemPath_iff absolute]
  constructor
  · rintro routed ⟨begins, longer⟩
    exact longer (routed.mp begins)
  · intro notLonger
    constructor
    · intro begins
      by_contra different
      exact notLonger ⟨begins, different⟩
    · intro first
      rw [first]

theorem readdirRight_iff (absolute : path.head? = some slash) :
    ReaddirRight devices files path ↔ ¬Longer (firstComponent path) := by
  rw [← isSystemPath_iff_system absolute]
  constructor
  · intro right
    rw [← right.routed, readdir_system_iff]
  · intro routed
    constructor
    · rw [readdir_system_iff, routed]
    · intro other more
      exact readdirOnDevice absolute more fun taken => other (routed.mp taken)
    · intro first directory names
      exact ⟨directory, readdir_pathOf (routed.mpr first) names, lists_systemNames _ _⟩

theorem readFileRight_iff (absolute : path.head? = some slash) :
    ReadFileRight devices files path ↔ ¬Longer (firstComponent path) ∧
      (firstComponent path = system → path.drop 7 ∈ initrdListFiles files) := by
  rw [← isSystemPath_iff_system absolute]
  constructor
  · intro right
    constructor
    · rw [← right.routed, readFile_initrd_iff]
    · intro first
      by_contra missing
      obtain ⟨error, gives⟩ := right.missing first missing
      exact readFile_ne_error (isSystemPath_of_firstComponent absolute first) error gives
  · rintro ⟨routed, present⟩
    constructor
    · rw [readFile_initrd_iff, routed]
    · intro other more
      exact readFileOnDevice absolute more fun taken => other (routed.mp taken)
    · intro first file found
      exact readFile_listed (routed.mpr first) found
    · intro first missing
      exact absurd (present first) missing

end Right

/-- **What a path means**: `readdir` is right exactly if the first component is not a longer name
that begins with `system`, and `readFile` if, besides, a path under `/system` is that of a file. -/
theorem paths_right_iff (devices : List Device) (files : List InitrdFile) {path : Units}
    (absolute : path.head? = some slash) :
    (ReaddirRight devices files path ↔ ¬Longer (firstComponent path)) ∧
      (ReadFileRight devices files path ↔ ¬Longer (firstComponent path) ∧
        (firstComponent path = system → path.drop 7 ∈ initrdListFiles files)) :=
  ⟨readdirRight_iff absolute, readFileRight_iff absolute⟩

/-- The path of a file, where there is one. -/
theorem paths_right_iff_file :
    ReaddirRight [] [⟨units "/js/index.js", [0x27], by decide⟩] (units "/system/js/index.js") ∧
      ReadFileRight [] [⟨units "/js/index.js", [0x27], by decide⟩]
        (units "/system/js/index.js") := by
  have absolute : (units "/system/js/index.js").head? = some slash := by decide
  have notLonger : ¬Longer (firstComponent (units "/system/js/index.js")) := by
    rintro ⟨-, longer⟩
    exact longer (by decide)
  have exact_ := paths_right_iff [] [⟨units "/js/index.js", [0x27], by decide⟩] absolute
  refine ⟨exact_.1.mpr notLonger, exact_.2.mpr ⟨notLonger, ?_⟩⟩
  intro _
  exact List.mem_singleton.mpr (by decide)

/-- A path to a device `systemX` is taken to the initial file system, and a file that is not there
throws. -/
theorem systemX_not_right :
    readdir [⟨units "systemX", []⟩] (units "/systemX") = .system (units "X") ∧
      ¬ReaddirRight [⟨units "systemX", []⟩] [] (units "/systemX") ∧
      readFile [] (initrdReadFileBuffer []) (units "/system/missing") = .initrd .throws ∧
      ¬ReadFileRight [] [] (units "/system/missing") := by
  have listed : readdir [⟨units "systemX", []⟩] (units "/systemX") = .system (units "X") := by
    decide
  have thrown : readFile [] (initrdReadFileBuffer []) (units "/system/missing") =
      .initrd .throws := rfl
  refine ⟨listed, ?_, thrown, ?_⟩
  · intro right
    exact absurd (right.routed.mp ⟨_, listed⟩) (by decide)
  · intro right
    obtain ⟨error, gives⟩ := right.missing (by decide) List.not_mem_nil
    cases thrown.symm.trans gives

end JsOS.Core.Fs
