import JsOS.Core.Fs.SystemPaths
import JsOS.Library.Run

/-! # Persistent storage

A map that is kept in a file as the JSON of its entries. The constructor starts to read the file,
and the callback of the read replaces the map by what it parses. It takes the first argument of the
callback for the data, which is `null` if the file has been read: so a read that succeeds empties
the map, and one that fails throws and leaves it.
-/

namespace JsOS.Core

open Fs (Device ReadError isSystemPath splitPath letterP getDeviceByName partitionNumber
  resolvePath readFile)
open NumericString (Units units)

namespace Storage

/-! ## JSON -/

/-- JSON data. -/
inductive Json where
  | null
  | boolean (value : Bool)
  | number (value : ℚ)
  | string (value : Units)
  | array (elements : List Json)
  | object (members : List (Units × Json))

/-- A text, by what `JSON.parse` makes of it. -/
inductive Text where
  | json (value : Json)
  /-- A `SyntaxError`. -/
  | other

/-- `JSON.parse`. -/
def parse : Text → Option Json
  | .json value => some value
  | .other => none

/-- `JSON.stringify`. -/
def stringify (value : Json) : Text := .json value

/-! ## Maps -/

/-- The entries of a `Map`, in the order in which their keys were first set. -/
abbrev Map := List (Units × Json)

namespace Map

/-- `Map.get`. -/
def get (map : Map) (name : Units) : Option Json := map.lookup name

/-- `Map.set`. -/
def set (map : Map) (name : Units) (value : Json) : Map :=
  match map with
  | [] => [(name, value)]
  | (key, old) :: rest =>
      if name = key then (key, value) :: rest else (key, old) :: set rest name value

/-- `[...map]`. -/
def entries (map : Map) : Json := .array (map.map fun entry => .array [.string entry.1, entry.2])

/-- An entry with a string as its key. -/
def entry : Json → Option (Units × Json)
  | .array [.string name, value] => some (name, value)
  | _ => none

/-- `new Map`, of entries whose keys are strings; of nothing that is not iterable. -/
def ofJson : Json → Option Map
  | .null => some []
  | .array elements => (elements.mapM entry).map fun list =>
      list.foldl (fun map new => map.set new.1 new.2) []
  | _ => none

end Map

/-! ## The file -/

/-- `writeFile` leaves the write to the file system; else its callback gets an error at once, also
where the path is `null`. -/
def writesLater (devices : List Device) (path : Option Units) : Bool :=
  match path with
  | none => false
  | some path =>
      match resolvePath devices path with
      | .error _ => false
      | .ok resolved => resolved.level ≥ 3

/-! ## The storage -/

/-- The text of the first argument of a callback, which is `null` or an error. The text of an error
begins with its name. -/
def firstArgument : Option ReadError → Text
  | none => .json .null
  | some _ => .other

/-- The callback of `load`: the new map, unless it throws. -/
def loaded (data : Option ReadError) : Option Map := (parse (firstArgument data)).bind Map.ofJson

/-- How far the load is. -/
inductive Load where
  /-- There is no path. -/
  | none
  | reading
  /-- The file system has read the file. -/
  | read (content : Text)
  /-- The callback has got the content. -/
  | done (content : Text)
  /-- The callback has got an error. -/
  | failed

/-- A storage and what is going on around it: its load, the file at its path, the saves that are not
yet written, and the values set in this session. -/
structure Session where
  path : Option Units
  data : Map
  load : Load
  file : Option Text
  writes : List Text
  assigned : Map

/-- What happens: the calls, the steps of the file system, and the callbacks of the load. -/
inductive Event where
  | set (name : Units) (value : Json)
  | save
  | fileRead
  | readFails (error : ReadError)
  | readReturns
  | written (index : ℕ)
  | writeFails (index : ℕ)

namespace Session

/-- The callback of `load` is called. If it throws, nobody catches the error. -/
def callback (session : Session) (data : Option ReadError) (load : Load) : Session :=
  { session with data := (loaded data).getD session.data, load }

/-- An event; one that cannot happen changes nothing. -/
def step (devices : List Device) (session : Session) : Event → Session
  | .set name value =>
      { session with
        data := session.data.set name value
        assigned := session.assigned.set name value }
  | .save =>
      if writesLater devices session.path then
        { session with writes := session.writes ++ [stringify session.data.entries] }
      else session
  | .fileRead =>
      match session.load, session.file with
      | .reading, some content => { session with load := .read content }
      | _, _ => session
  | .readFails error =>
      match session.load with
      | .reading => session.callback (some error) .failed
      | _ => session
  | .readReturns =>
      match session.load with
      | .read content => session.callback none (.done content)
      | _ => session
  | .written index =>
      match session.writes[index]? with
      | some content =>
          { session with file := some content, writes := session.writes.eraseIdx index }
      | none => session
  | .writeFails index => { session with writes := session.writes.eraseIdx index }

end Session

/-- `constructor`: the session at its start, unless the constructor throws. The file is that of the
file system. -/
def construct (devices : List Device) (initrdReadFile : Units → Option Text) (path : Option Units)
    (file : Option Text) : Option Session :=
  let session : Session := ⟨path, [], .none, file, [], []⟩
  match path with
  | none => some session
  | some [] => some session
  | some path =>
      match readFile devices initrdReadFile path with
      | .initrd .throws => none
      | .initrd (.error error) =>
          (loaded (some error)).map fun data => { session with data, load := .failed }
      | .initrd (.content content) =>
          (loaded none).map fun data => { session with data, load := .done content }
      | .fails error => (loaded (some error)).map fun data => { session with data, load := .failed }
      | .later _ => some { session with load := .reading }

/-! ## What is meant -/

/-- The value that the file stores for a name. -/
def stored (file : Option Text) (name : Units) : Option Json :=
  ((file.bind parse).bind Map.ofJson).bind fun map => map.get name

/-- **Nothing is lost**: a name has the value that was last set for it, and one that has not been
set, once the content of the file has been loaded, the value that the file stores. -/
structure Kept (session : Session) : Prop where
  assigned : ∀ name value, session.assigned.get name = some value →
    session.data.get name = some value
  loaded : ∀ content value, session.load = .done content → parse content = some value →
    ∀ name, session.assigned.get name = none → session.data.get name = stored session.file name

/-- A read that fails or cannot be parsed leaves the map as it was. -/
def LeavesMap (devices : List Device) (session : Session) (event : Event) : Prop :=
  (∀ error, event = .readFails error → (session.step devices event).data = session.data) ∧
    ∀ content, event = .readReturns → session.load = .read content → parse content = none →
      (session.step devices event).data = session.data

/-- A load loses nothing: no name has been set, and if the content can be parsed, the file stores
nothing. -/
def Harmless (session : Session) (content : Text) : Prop :=
  session.assigned = [] ∧
    ∀ value, parse content = some value → ∀ name, stored session.file name = none

/-- A step is no read that succeeds, unless the load loses nothing. -/
def Spares (session : Session) (event : Event) : Prop :=
  ∀ content, event = .readReturns → session.load = .read content → Harmless session content

/-! ## Entries -/

namespace Map

theorem get_cons (key name : Units) (value : Json) (map : Map) :
    get ((key, value) :: map) name = if name = key then some value else get map name := by
  unfold get
  rw [List.lookup_cons]
  by_cases same : name = key
  · rw [if_pos same, beq_iff_eq.mpr same]
  · rw [if_neg same, beq_false_of_ne same]

/-- **A map after a set**: the name has the value, the others keep theirs. -/
theorem get_set (map : Map) (name other : Units) (value : Json) :
    (map.set name value).get other = if other = name then some value else map.get other := by
  induction map with
  | nil =>
      unfold set
      rw [get_cons]
  | cons entry rest inductionHypothesis =>
      obtain ⟨key, old⟩ := entry
      unfold set
      by_cases same : name = key
      · subst key
        rw [if_pos rfl, get_cons, get_cons]
        by_cases found : other = name
        · rw [if_pos found, if_pos found]
        · rw [if_neg found, if_neg found, if_neg found]
      · rw [if_neg same, get_cons, get_cons, inductionHypothesis]
        by_cases found : other = name
        · subst other
          rw [if_neg same, if_pos rfl, if_pos rfl]
        · rw [if_neg found, if_neg found]

theorem eq_nil_of_get {map : Map} (unset : ∀ name, map.get name = none) : map = [] := by
  cases map with
  | nil => rfl
  | cons entry rest =>
      have found := unset entry.1
      rw [get_cons, if_pos rfl] at found
      cases found

/-- A name that is not among the keys is put behind them. -/
theorem set_of_not_mem {map : Map} {name : Units} (new : name ∉ map.map Prod.fst) (value : Json) :
    map.set name value = map ++ [(name, value)] := by
  induction map with
  | nil => rfl
  | cons entry rest inductionHypothesis =>
      rw [List.map_cons, List.mem_cons, not_or] at new
      unfold set
      rw [if_neg new.1, inductionHypothesis new.2, List.cons_append]

/-- A set puts no key twice. -/
theorem nodup_set {map : Map} (nodup : (map.map Prod.fst).Nodup) (name : Units) (value : Json) :
    ((map.set name value).map Prod.fst).Nodup := by
  by_cases new : name ∈ map.map Prod.fst
  · have keys : (map.set name value).map Prod.fst = map.map Prod.fst := by
      clear nodup
      induction map with
      | nil => cases new
      | cons entry rest inductionHypothesis =>
          unfold set
          by_cases same : name = entry.1
          · rw [if_pos same, List.map_cons, List.map_cons]
          · rw [List.map_cons, List.mem_cons, or_iff_right same] at new
            rw [if_neg same, List.map_cons, List.map_cons, inductionHypothesis new]
    rw [keys]
    exact nodup
  · rw [set_of_not_mem new, List.map_append]
    refine List.nodup_append.mpr ⟨nodup, List.nodup_singleton _, ?_⟩
    rintro key member _ last rfl
    obtain rfl := List.mem_singleton.mp last
    exact new member

theorem foldl_set {map list : Map} (nodup : ((map ++ list).map Prod.fst).Nodup) :
    list.foldl (fun map new => map.set new.1 new.2) map = map ++ list := by
  induction list generalizing map with
  | nil => rw [List.foldl_nil, List.append_nil]
  | cons entry rest inductionHypothesis =>
      have new : entry.1 ∉ map.map Prod.fst := by
        intro member
        rw [List.map_append] at nodup
        exact (List.nodup_append.mp nodup).2.2 _ member _ List.mem_cons_self rfl
      have split : map ++ entry :: rest = map ++ [entry] ++ rest := by
        rw [List.append_assoc, List.singleton_append]
      rw [List.foldl_cons, set_of_not_mem new, inductionHypothesis]
      · exact split.symm
      · rw [← split]
        exact nodup

theorem mapM_entry (map : Map) :
    (map.map fun entry => Json.array [.string entry.1, entry.2]).mapM entry = some map := by
  induction map with
  | nil => rfl
  | cons first rest inductionHypothesis =>
      rw [List.map_cons, List.mapM_cons, inductionHypothesis]
      rfl

/-- **The entries of a map make the map again.** -/
theorem ofJson_entries {map : Map} (nodup : (map.map Prod.fst).Nodup) :
    ofJson map.entries = some map := by
  unfold entries ofJson
  dsimp only
  rw [mapM_entry, Option.map_some, foldl_set (by rwa [List.nil_append]), List.nil_append]

end Map

/-- A save that has been written stores what the map had. -/
theorem stored_stringify {map : Map} (nodup : (map.map Prod.fst).Nodup) (name : Units) :
    stored (some (stringify map.entries)) name = map.get name := by
  unfold stored stringify parse
  rw [Option.bind_some, Option.bind_some, Map.ofJson_entries nodup, Option.bind_some]

/-! ## Sessions -/

/-- A name that has not been set is not in the map, nor in a save that is not yet written. -/
structure Covered (session : Session) : Prop where
  nodup : (session.data.map Prod.fst).Nodup
  data : ∀ name, session.assigned.get name = none → session.data.get name = none
  writes : ∀ content ∈ session.writes, ∀ name, session.assigned.get name = none →
    stored (some content) name = none

/-- The callback without an error empties the map. -/
theorem callback_null (session : Session) (load : Load) :
    session.callback none load = { session with data := [], load } := rfl

/-- The callback with an error throws. -/
theorem callback_error (session : Session) (error : ReadError) (load : Load) :
    session.callback (some error) load = { session with load } := rfl

section Step

variable {devices : List Device} {session : Session}

theorem covered_step (covered : Covered session) (event : Event) :
    Covered (session.step devices event) := by
  obtain ⟨nodup, data, writes⟩ := covered
  unfold Session.step
  cases event with
  | set name value =>
      have unset (other : Units) (missing : (session.assigned.set name value).get other = none) :
          other ≠ name ∧ session.assigned.get other = none := by
        rw [Map.get_set] at missing
        by_cases same : other = name
        · rw [if_pos same] at missing
          cases missing
        · rw [if_neg same] at missing
          exact ⟨same, missing⟩
      constructor
      · exact Map.nodup_set nodup name value
      · intro other missing
        obtain ⟨different, missing⟩ := unset other missing
        dsimp only
        rw [Map.get_set, if_neg different]
        exact data other missing
      · intro content member other missing
        exact writes content member other (unset other missing).2
  | save =>
      dsimp only
      split
      · refine ⟨nodup, data, ?_⟩
        intro content member name missing
        rcases List.mem_append.mp member with earlier | new
        · exact writes content earlier name missing
        · obtain rfl := List.mem_singleton.mp new
          rw [stored_stringify nodup]
          exact data name missing
      · exact ⟨nodup, data, writes⟩
  | fileRead =>
      dsimp only
      split
      · exact ⟨nodup, data, writes⟩
      · exact ⟨nodup, data, writes⟩
  | readFails error =>
      dsimp only
      split
      · rw [callback_error]
        exact ⟨nodup, data, writes⟩
      · exact ⟨nodup, data, writes⟩
  | readReturns =>
      dsimp only
      split
      · rw [callback_null]
        exact ⟨List.nodup_nil, fun _ _ => rfl, writes⟩
      · exact ⟨nodup, data, writes⟩
  | written index =>
      dsimp only
      split
      · exact ⟨nodup, data, fun content member => writes content (List.mem_of_mem_eraseIdx member)⟩
      · exact ⟨nodup, data, writes⟩
  | writeFails index =>
      exact ⟨nodup, data, fun content member => writes content (List.mem_of_mem_eraseIdx member)⟩

/-- **A load that succeeds** keeps everything exactly if there was nothing to lose. -/
theorem kept_readReturns (covered : Covered session) {content : Text}
    (read : session.load = .read content) :
    Kept (session.step devices .readReturns) ∧ LeavesMap devices session .readReturns ↔
      Harmless session content := by
  have after : session.step devices .readReturns =
      { session with data := [], load := .done content } := by
    unfold Session.step
    dsimp only
    rw [read]
    exact callback_null session (.done content)
  unfold LeavesMap
  rw [after]
  constructor
  · rintro ⟨⟨assigned, loaded⟩, -⟩
    have nothing : session.assigned = [] := by
      apply Map.eq_nil_of_get
      intro name
      by_contra found
      obtain ⟨value, set_⟩ := Option.ne_none_iff_exists'.mp found
      cases assigned name value set_
    refine ⟨nothing, ?_⟩
    intro value parsed name
    exact (loaded content value rfl parsed name (by rw [nothing]; rfl)).symm
  · rintro ⟨nothing, storesNothing⟩
    refine ⟨⟨?_, ?_⟩, ?_, ?_⟩
    · intro name value set_
      rw [nothing] at set_
      cases set_
    · intro done value isDone parsed name _
      cases isDone
      exact (storesNothing value parsed name).symm
    · intro error isFail
      cases isFail
    · intro _ _ _ _
      refine (Map.eq_nil_of_get fun name => covered.data name ?_).symm
      rw [nothing]
      rfl

/-- A read that fails leaves the map. -/
theorem data_readFails (error : ReadError) :
    (session.step devices (.readFails error)).data = session.data := by
  unfold Session.step
  dsimp only
  split
  · rfl
  · rfl

/-- Any other step keeps what is kept. -/
theorem kept_step (covered : Covered session) (kept : Kept session) {event : Event}
    (foreign : event = .readReturns → ∀ content, session.load ≠ .read content) :
    Kept (session.step devices event) := by
  obtain ⟨assigned, loaded⟩ := kept
  cases event with
  | set name value =>
      constructor
      · intro found last set_
        dsimp only [Session.step] at set_ ⊢
        rw [Map.get_set] at set_ ⊢
        by_cases same : found = name
        · rw [if_pos same] at set_ ⊢
          exact set_
        · rw [if_neg same] at set_ ⊢
          exact assigned found last set_
      · intro content json done parsed found missing
        dsimp only [Session.step] at missing ⊢
        rw [Map.get_set] at missing ⊢
        by_cases same : found = name
        · rw [if_pos same] at missing
          cases missing
        · rw [if_neg same] at missing ⊢
          exact loaded content json done parsed found missing
  | save =>
      unfold Session.step
      dsimp only
      split
      · exact ⟨assigned, loaded⟩
      · exact ⟨assigned, loaded⟩
  | fileRead =>
      unfold Session.step
      dsimp only
      split
      · exact ⟨assigned, fun _ _ done => Load.noConfusion done⟩
      · exact ⟨assigned, loaded⟩
  | readFails error =>
      unfold Session.step
      dsimp only
      split
      · rw [callback_error]
        exact ⟨assigned, fun _ _ done => Load.noConfusion done⟩
      · exact ⟨assigned, loaded⟩
  | readReturns =>
      unfold Session.step
      dsimp only
      split
      · next content read => exact absurd read (foreign rfl content)
      · exact ⟨assigned, loaded⟩
  | written index =>
      unfold Session.step
      dsimp only
      split
      · next content found =>
          refine ⟨assigned, ?_⟩
          intro _ _ _ _ name missing
          rw [covered.data name missing]
          exact (covered.writes content (List.mem_of_getElem? found) name missing).symm
      · exact ⟨assigned, loaded⟩
  | writeFails index => exact ⟨assigned, loaded⟩

/-- **A step keeps everything exactly if it spares it.** -/
theorem kept_step_iff (covered : Covered session) (kept : Kept session) (event : Event) :
    Kept (session.step devices event) ∧ LeavesMap devices session event ↔ Spares session event := by
  by_cases returns : event = .readReturns ∧ ∃ content, session.load = .read content
  · obtain ⟨rfl, content, read⟩ := returns
    rw [kept_readReturns covered read]
    unfold Spares
    constructor
    · intro harmless content' _ same
      obtain rfl := Load.read.inj (read.symm.trans same)
      exact harmless
    · intro spares
      exact spares content rfl read
  · have foreign (isReturn : event = .readReturns) (content : Text) :
        session.load ≠ .read content :=
      fun read => returns ⟨isReturn, content, read⟩
    refine iff_of_true ⟨kept_step covered kept foreign, ?_, ?_⟩ ?_
    · rintro error rfl
      exact data_readFails error
    · intro content isReturn read
      exact absurd read (foreign isReturn content)
    · intro content isReturn read
      exact absurd read (foreign isReturn content)

end Step

/-- What the constructor gives has an empty map, and nothing is set or saved. -/
theorem construct_eq {devices : List Device} {initrdReadFile : Units → Option Text}
    {path : Option Units} {file : Option Text} {session : Session}
    (constructed : construct devices initrdReadFile path file = some session) :
    ∃ load, session = ⟨path, [], load, file, [], []⟩ := by
  unfold construct at constructed
  dsimp only at constructed
  split at constructed
  · exact ⟨_, (Option.some.inj constructed).symm⟩
  · exact ⟨_, (Option.some.inj constructed).symm⟩
  · split at constructed
    · cases constructed
    · cases constructed
    · exact ⟨_, (Option.some.inj constructed).symm⟩
    · cases constructed
    · exact ⟨_, (Option.some.inj constructed).symm⟩

theorem covered_start (path : Option Units) (load : Load) (file : Option Text) :
    Covered ⟨path, [], load, file, [], []⟩ where
  nodup := List.nodup_nil
  data := fun _ _ => rfl
  writes := fun _ member => absurd member List.not_mem_nil

/-- A session keeps everything at its start, unless the constructor has already read a file that
stores something. -/
theorem kept_start_iff (path : Option Units) (load : Load) (file : Option Text) :
    Kept ⟨path, [], load, file, [], []⟩ ↔
      ∀ content, load = .done content → Harmless ⟨path, [], load, file, [], []⟩ content := by
  constructor
  · rintro ⟨-, loaded⟩ content done
    exact ⟨rfl, fun value parsed name => (loaded content value done parsed name rfl).symm⟩
  · intro harmless
    constructor
    · intro name value set_
      cases set_
    · intro content value done parsed name _
      exact ((harmless content done).2 value parsed name).symm

/-- **A session loses nothing exactly if its load finds nothing to lose**: in every run of calls, of
steps of the file system and of callbacks, every name has its last value in every state, and no
failed read changes the map, exactly if no name has been set before a read succeeds, and the file
then stores nothing. -/
theorem session_kept_iff {devices : List Device} {initrdReadFile : Units → Option Text}
    {path : Option Units} {file : Option Text} {session : Session}
    (constructed : construct devices initrdReadFile path file = some session)
    (events : List Event) :
    ((∀ past future, events = past ++ future →
        Kept (Transition.run (Session.step devices) session past)) ∧
      Transition.Along (Session.step devices) (LeavesMap devices) session events) ↔
    (∀ content, session.load = .done content → Harmless session content) ∧
      Transition.Along (Session.step devices) Spares session events := by
  obtain ⟨load, rfl⟩ := construct_eq constructed
  rw [Transition.forall_reached_iff_along, kept_start_iff, and_assoc]
  apply and_congr_right
  intro harmless
  have kept := (kept_start_iff path load file).mpr harmless
  have both := @Transition.Along.iff_of_invariant _ _ (Session.step devices)
    (fun session => Covered session ∧ Kept session) (fun _ _ => True) Spares
    (fun session event => Kept (session.step devices event) ∧ LeavesMap devices session event)
    (fun session event _ valid => kept_step_iff valid.1 valid.2 event)
    (fun session event _ valid spares =>
      ⟨covered_step valid.1 event, ((kept_step_iff valid.1 valid.2 event).mpr spares).1⟩)
    _ events (Transition.Along.of_inputs fun _ _ => trivial) ⟨covered_start path load file, kept⟩
  rw [← both]
  constructor
  · rintro ⟨keeps, leaves⟩
    exact keeps.and leaves
  · intro along
    exact ⟨along.mono fun _ _ holds => holds.1, along.mono fun _ _ holds => holds.2⟩

/-- Where a write is left to the file system, so is a read. -/
theorem readFile_later {devices : List Device} {initrdReadFile : Units → Option Text} {path : Units}
    (plain : isSystemPath path = false) (later : writesLater devices (some path) = true) :
    ∃ resolved, readFile devices initrdReadFile path = .later resolved := by
  unfold writesLater at later
  dsimp only at later
  unfold readFile
  rw [if_neg (by rw [plain]; exact Bool.false_ne_true)]
  cases ok : resolvePath devices path with
  | error error =>
      rw [ok] at later
      cases later
  | ok resolved =>
      rw [ok] at later
      exact ⟨resolved, if_pos (of_decide_eq_true later)⟩

/-- A file in the root directory of a partition is written by the file system. -/
theorem writesLater_of_split {devices : List Device} {path name file : Units} {digit : BitVec 16}
    {device : Device} (split : splitPath path = [[], name, [letterP, digit], file])
    (found : getDeviceByName devices name = some device)
    (isDigit : NumericString.isDigit digit) : writesLater devices (some path) = true := by
  have number : partitionNumber [letterP, digit] = some (NumericString.toNumber [digit]) := by
    unfold partitionNumber
    dsimp only
    rw [if_pos]
    refine ⟨rfl, List.cons_ne_nil _ _, ?_⟩
    intro unit member
    obtain rfl := List.mem_singleton.mp member
    exact isDigit
  unfold writesLater resolvePath
  dsimp only
  rw [split]
  dsimp only
  rw [if_neg (not_not.mpr rfl), found]
  dsimp only
  rw [number]
  rfl

/-- A session whose file the file system reads. -/
theorem construct_later {devices : List Device} {initrdReadFile : Units → Option Text}
    {path : Units} (nonempty : path ≠ []) (plain : isSystemPath path = false)
    (later : writesLater devices (some path) = true) (file : Option Text) :
    construct devices initrdReadFile (some path) file =
      some ⟨some path, [], .reading, file, [], []⟩ := by
  obtain ⟨resolved, reads⟩ := @readFile_later devices initrdReadFile path plain later
  obtain ⟨first, rest, rfl⟩ := List.exists_cons_of_ne_nil nonempty
  unfold construct
  dsimp only
  rw [reads]

/-- The device `d`. -/
def device : Device := ⟨[100], []⟩

/-- `/d/p0/f`. -/
def filePath : Units := [47, 100, 47, 112, 48, 47, 102]

theorem construct_filePath (file : Option Text) :
    construct [device] (fun _ => none) (some filePath) file =
      some ⟨some filePath, [], .reading, file, [], []⟩ := by
  have split : splitPath filePath = [[], [100], [letterP, 48], [102]] := by decide +kernel
  have found : getDeviceByName [device] [100] = some device := by decide +kernel
  exact construct_later (by decide) (by decide) (writesLater_of_split split found rfl) file

/-- A session that sets a name after the empty file has been loaded. -/
theorem session_kept_iff_afterLoad :
    Kept (Transition.run (Session.step [device])
      ⟨some filePath, [], .reading, some (stringify (Map.entries [])), [], []⟩
      [.fileRead, .readReturns, .set [110] (.number 1), .save, .written 0]) := by
  refine ((session_kept_iff (construct_filePath _)
    [.fileRead, .readReturns, .set [110] (.number 1), .save, .written 0]).mpr
      ⟨?_, ?_, ?_, ?_, ?_, ?_, trivial⟩).1 _ [] (List.append_nil _).symm
  · intro content done
    cases done
  · intro content isReturn
    cases isReturn
  · intro content _ read
    obtain rfl := Load.read.inj read
    refine ⟨rfl, ?_⟩
    intro value parsed name
    exact @stored_stringify [] List.nodup_nil name
  · intro content isReturn
    cases isReturn
  · intro content isReturn
    cases isReturn
  · intro content isReturn
    cases isReturn

/-- A value that is stored is not loaded, and one that is set before the load returns is lost. -/
theorem session_loses :
    ∃ session, construct [device] (fun _ => none) (some filePath)
        (some (stringify (Map.entries [(units "stored", .number 1)]))) = some session ∧
      let after := Transition.run (Session.step [device]) session
        [.set (units "name") (.number 2), .fileRead, .readReturns]
      after.data = [] ∧ stored after.file (units "stored") = some (.number 1) ∧
        after.assigned.get (units "name") = some (.number 2) ∧ ¬Kept after := by
  refine ⟨_, construct_filePath _, ?_⟩
  have lost : ¬Kept (Transition.run (Session.step [device])
      ⟨some filePath, [], .reading,
        some (stringify (Map.entries [(units "stored", .number 1)])), [], []⟩
      [.set (units "name") (.number 2), .fileRead, .readReturns]) := by
    rintro ⟨assigned, -⟩
    cases assigned (units "name") (.number 2) rfl
  exact ⟨rfl, rfl, rfl, lost⟩

end Storage

end JsOS.Core
