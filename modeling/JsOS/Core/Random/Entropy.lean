import JsOS.Driver.Virtio.Rng

/-! # Entropy for the generator

Sources fill arrays and call back, and the callbacks seed the generator. Both sources call back
without an argument. `getTrueRandomValues` seeds with the array that it has asked to fill, but
`addEntropySource` with the argument of its callback, so that with every source that is added the
generator is seeded with `undefined` (`seededRight_iff`).
-/

namespace JsOS.Core.Random

open Virtio (CallbackEntry Memory Rng Uint8Array UsedElement)

/-! ## One source -/

/-- Who has asked a source for bytes. -/
inductive Use where
  | addEntropySource
  | getTrueRandomValues
  deriving DecidableEq, Repr

/-- A call of `isaac.seed`: the request that it is made for, its argument, which may be
`undefined`, and whether the source has filled the array of the request by then. -/
structure Seeding where
  callback : ℕ
  argument : Option Uint8Array
  filled : Bool
  deriving DecidableEq, Repr

/-- A call of the callback of `getTrueRandomValues`, and the request that it is made for. -/
structure Handing where
  callback : ℕ
  u8 : Uint8Array
  deriving DecidableEq, Repr

/-- The sources: `js-random`, with the requests whose arrays it has filled, and `virtio-rng`. -/
inductive Driver where
  | jsRandom (filled : List CallbackEntry)
  | virtioRng (rng : Rng)
  deriving DecidableEq, Repr

/-- The requests whose arrays the source has filled. -/
def Driver.filled : Driver → List CallbackEntry
  | .jsRandom filled => filled
  | .virtioRng rng => rng.channel.completed

/-- A source, and what was asked of it and came of that. A request is named by the number of
requests before it. -/
structure Source where
  driver : Driver
  uses : List Use := []
  /-- The requests whose callbacks have run, in order. -/
  returned : List CallbackEntry := []
  seedings : List Seeding := []
  handings : List Handing := []
  deriving DecidableEq, Repr

/-- What a callback passes to `isaac.seed`, when it is called with an argument. -/
def seeded (use : Use) (u8 : Uint8Array) (argument : Option Uint8Array) : Option Uint8Array :=
  match use with
  | .addEntropySource => argument
  | .getTrueRandomValues => some u8

/-- What a callback hands on. -/
def handed (use : Use) (u8 : Uint8Array) : List Uint8Array :=
  match use with
  | .addEntropySource => []
  | .getTrueRandomValues => [u8]

namespace Source

variable (translate : ℕ → ℕ) (source : Source)

/-- The source calls the callback of a request. -/
def callBack (entry : CallbackEntry) (argument : Option Uint8Array) : Source :=
  match source.uses[entry.callback]? with
  | none => source
  | some use =>
      { source with
        returned := source.returned ++ [entry]
        seedings := source.seedings ++
          [⟨entry.callback, seeded use entry.u8 argument, decide (entry ∈ source.driver.filled)⟩]
        handings := source.handings ++ (handed use entry.u8).map fun u8 => ⟨entry.callback, u8⟩ }

/-- `cb()`. -/
def cb (entry : CallbackEntry) : Source := source.callBack entry none

/-- `getBytes`. The source `js-random` fills the array and calls back at once. -/
def getBytes (use : Use) (u8 : Uint8Array) : Source :=
  match source.driver with
  | .jsRandom filled =>
      let entry : CallbackEntry := ⟨source.uses.length, u8⟩
      cb
        { source with
          driver := .jsRandom (filled ++ [entry])
          uses := source.uses ++ [use] } entry
  | .virtioRng rng =>
      if rng.channel.exchange.stuck then source
      else
        { source with
          driver := .virtioRng (rng.ongetbytes translate u8)
          uses := source.uses ++ [use] }

/-- The driver of `virtio-rng` takes a step, and callbacks run that it has called. -/
def advance (event : Rng.Event) : Source :=
  match source.driver with
  | .jsRandom _ => source
  | .virtioRng rng =>
      let next := rng.step translate event
      (next.ran.drop rng.ran.length).foldl cb { source with driver := .virtioRng next }

/-- What happens to a source. -/
inductive Event where
  | getBytes (use : Use) (u8 : Uint8Array)
  | complete (element : UsedElement)
  | irq (hasPendingIRQ : Bool)
  | runImmediate
  deriving DecidableEq, Repr

def step : Event → Source
  | .getBytes use u8 => source.getBytes translate use u8
  | .complete element => source.advance translate (.complete element)
  | .irq hasPendingIRQ => source.advance translate (.irq hasPendingIRQ)
  | .runImmediate => source.advance translate .runImmediate

/-- Every request finds room, and the device completes requests in the order of placement. -/
def Orderly : Event → Prop
  | .getBytes _ u8 =>
      match source.driver with
      | .jsRandom _ => True
      | .virtioRng rng => rng.Orderly translate (.ongetbytes u8)
  | .complete element =>
      match source.driver with
      | .jsRandom _ => True
      | .virtioRng rng => rng.Orderly translate (.complete element)
  | .irq _ => True
  | .runImmediate => True

instance Orderly.decidable : ∀ event, Decidable (source.Orderly translate event)
  | .getBytes _ u8 =>
      match source with
      | ⟨.jsRandom _, _, _, _, _⟩ => .isTrue trivial
      | ⟨.virtioRng rng, _, _, _, _⟩ => Rng.Orderly.decidable translate rng (.ongetbytes u8)
  | .complete element =>
      match source with
      | ⟨.jsRandom _, _, _, _, _⟩ => .isTrue trivial
      | ⟨.virtioRng rng, _, _, _, _⟩ => Rng.Orderly.decidable translate rng (.complete element)
  | .irq _ => .isTrue trivial
  | .runImmediate => .isTrue trivial

end Source

/-! ## All sources -/

/-- The sources and the default one, by their indices. -/
structure Entropy where
  sources : List Source := []
  defaultSource : Option ℕ := none

/-- A source before it is added. -/
inductive Kind where
  | jsRandom
  | virtioRng (memory : Memory) (exponent : ℕ)

def Kind.create : Kind → Source
  | .jsRandom => { driver := .jsRandom [] }
  | .virtioRng memory exponent => { driver := .virtioRng (.create memory (2 ^ exponent)) }

/-- The first argument of `getTrueRandomValues`: a number, an array, or something else. -/
inductive Value where
  | number (length : ℕ)
  | buffer (u8 : Uint8Array)
  | other
  deriving DecidableEq, Repr

/-- The array that `getTrueRandomValues` asks to fill, with the address of a new one. There is none
if an argument is refused. -/
def bufferOf (value : Value) (isFunction : Bool) (address : ℕ) : Option Uint8Array :=
  let u8 : Option Uint8Array :=
    match value with
    | .number length => some ⟨address, length⟩
    | .buffer u8 => some u8
    | .other => none
  u8.filter fun u8 => u8.length ≠ 0 && isFunction

inductive Event where
  | create (kind : Kind)
  | addEntropySource (index address : ℕ)
  | getTrueRandomValues (value : Value) (isFunction : Bool) (address : ℕ)
  | complete (index : ℕ) (element : UsedElement)
  | irq (index : ℕ) (hasPendingIRQ : Bool)
  | runImmediate (index : ℕ)

/-- The source that an event creates. -/
def Event.created : Event → List Source
  | .create kind => [kind.create]
  | _ => []

/-- The size of a ring is at most 2^16. -/
def Event.SizeAllowed : Event → Prop
  | .create (.virtioRng _ exponent) => exponent ≤ 16
  | _ => True

instance Event.SizeAllowed.decidable : ∀ event : Event, Decidable event.SizeAllowed
  | .create (.virtioRng _ exponent) => inferInstanceAs (Decidable (exponent ≤ 16))
  | .create .jsRandom => .isTrue trivial
  | .addEntropySource _ _ => .isTrue trivial
  | .getTrueRandomValues _ _ _ => .isTrue trivial
  | .complete _ _ => .isTrue trivial
  | .irq _ _ => .isTrue trivial
  | .runImmediate _ => .isTrue trivial

namespace Entropy

variable (translate : ℕ → ℕ) (entropy : Entropy)

/-- What happens to which source. -/
def dispatch : Event → Option (ℕ × Source.Event)
  | .create _ => none
  | .addEntropySource index address => some (index, .getBytes .addEntropySource ⟨address, 8⟩)
  | .getTrueRandomValues value isFunction address =>
      (bufferOf value isFunction address).bind fun u8 =>
        entropy.defaultSource.map fun index => (index, .getBytes .getTrueRandomValues u8)
  | .complete index element => some (index, .complete element)
  | .irq index hasPendingIRQ => some (index, .irq hasPendingIRQ)
  | .runImmediate index => some (index, .runImmediate)

/-- One step. A source that is added becomes the default. -/
def step (event : Event) : Entropy where
  sources :=
    (match entropy.dispatch event with
      | none => entropy.sources
      | some (index, event) =>
          entropy.sources.modify index fun source => source.step translate event) ++ event.created
  defaultSource :=
    match event with
    | .addEntropySource index _ =>
        if index < entropy.sources.length then some index else entropy.defaultSource
    | _ => entropy.defaultSource

/-- What happens to a source is orderly. -/
def OrderlyFor : Option (ℕ × Source.Event) → Prop
  | none => True
  | some (index, event) => ∀ source ∈ entropy.sources[index]?, source.Orderly translate event

instance OrderlyFor.decidable : ∀ happens, Decidable (entropy.OrderlyFor translate happens)
  | none => .isTrue trivial
  | some (index, event) =>
      inferInstanceAs
        (Decidable (∀ source ∈ entropy.sources[index]?, source.Orderly translate event))

/-- The event is orderly for its source, and a ring has a size that virtio allows. -/
def Orderly (event : Event) : Prop :=
  event.SizeAllowed ∧ entropy.OrderlyFor translate (entropy.dispatch event)

instance Orderly.decidable (event : Event) : Decidable (entropy.Orderly translate event) :=
  inferInstanceAs (Decidable (_ ∧ _))

/-- The sources with a list of events behind them. -/
def after (events : List Event) : Entropy := Transition.run (step translate) {} events

end Entropy

/-! ## What is to hold -/

/-- Nothing is left to deliver: no entry that the device has published, and no callback. -/
def Driver.Idle : Driver → Prop
  | .jsRandom _ => True
  | .virtioRng rng => rng.channel.exchange.pending = [] ∧ rng.channel.scheduled = 0

namespace Source

/-- The request is completed: its callback has run, or it is due, since the source has filled its
array and nothing is left to deliver. -/
def Completed (source : Source) (entry : CallbackEntry) : Prop :=
  entry ∈ source.returned ∨ (entry ∈ source.driver.filled ∧ source.driver.Idle)

/-- **A request seeds the generator** once, with its own array after that was filled, and
`getTrueRandomValues` hands on the array. -/
structure SeededRight (source : Source) (entry : CallbackEntry) : Prop where
  seeded : (source.seedings.filter fun seeding => seeding.callback = entry.callback) =
    [⟨entry.callback, some entry.u8, true⟩]
  handed : source.uses[entry.callback]? = some .getTrueRandomValues →
    (source.handings.filter fun handing => handing.callback = entry.callback) =
      [⟨entry.callback, entry.u8⟩]

/-! ## What a source has done -/

/-- What a request seeds the generator with. -/
def seedingsFor (uses : List Use) (entry : CallbackEntry) : List Seeding :=
  uses[entry.callback]?.toList.map fun use => ⟨entry.callback, seeded use entry.u8 none, true⟩

/-- What a request hands on. -/
def handingsFor (uses : List Use) (entry : CallbackEntry) : List Handing :=
  uses[entry.callback]?.toList.flatMap fun use =>
    (handed use entry.u8).map fun u8 => ⟨entry.callback, u8⟩

/-- The record of the callbacks that have run. -/
structure Logged (source : Source) : Prop where
  named : ∀ entry ∈ source.returned, entry.callback < source.uses.length
  once : (source.returned.map CallbackEntry.callback).Nodup
  filled : ∀ entry ∈ source.returned, entry ∈ source.driver.filled
  seedings : source.seedings = source.returned.flatMap (seedingsFor source.uses)
  handings : source.handings = source.returned.flatMap (handingsFor source.uses)

variable {source : Source}

/-- A callback that has not run, of a request that was filled, is added to the record. -/
theorem Logged.cb (logged : source.Logged) (entry : CallbackEntry)
    (named : entry.callback < source.uses.length)
    (fresh : entry.callback ∉ source.returned.map CallbackEntry.callback)
    (filled : entry ∈ source.driver.filled) :
    (source.cb entry).Logged ∧ (source.cb entry).returned = source.returned ++ [entry] ∧
      (source.cb entry).driver = source.driver ∧ (source.cb entry).uses = source.uses := by
  obtain ⟨use, found⟩ : ∃ use, source.uses[entry.callback]? = some use :=
    ⟨_, List.getElem?_eq_getElem named⟩
  rw [Source.cb, callBack, found]
  refine ⟨?_, rfl, rfl, rfl⟩
  constructor
  · intro other member
    obtain old | new := List.mem_append.mp member
    · exact logged.named other old
    · rw [List.mem_singleton.mp new]
      exact named
  · dsimp only
    rw [List.map_append]
    refine List.nodup_append.mpr ⟨logged.once, List.nodup_singleton _, ?_⟩
    rintro callback earlier other isEntry rfl
    rw [List.mem_singleton.mp isEntry] at earlier
    exact fresh earlier
  · intro other member
    obtain old | new := List.mem_append.mp member
    · exact logged.filled other old
    · rw [List.mem_singleton.mp new]
      exact filled
  · dsimp only
    rw [List.flatMap_append, logged.seedings, List.flatMap_singleton, seedingsFor, found,
      decide_eq_true filled]
    rfl
  · dsimp only
    rw [List.flatMap_append, logged.handings, List.flatMap_singleton, handingsFor, found]
    exact congrArg _ (List.flatMap_singleton _ _).symm

/-- So are several. -/
theorem Logged.foldl_cb (logged : source.Logged) (later : List CallbackEntry)
    (named : ∀ entry ∈ later, entry.callback < source.uses.length)
    (once : ((source.returned ++ later).map CallbackEntry.callback).Nodup)
    (filled : ∀ entry ∈ later, entry ∈ source.driver.filled) :
    (later.foldl Source.cb source).Logged ∧
      (later.foldl Source.cb source).returned = source.returned ++ later ∧
      (later.foldl Source.cb source).driver = source.driver ∧
      (later.foldl Source.cb source).uses = source.uses := by
  induction later generalizing source with
  | nil => exact ⟨logged, (List.append_nil _).symm, rfl, rfl⟩
  | cons entry later ih =>
      have fresh : entry.callback ∉ source.returned.map CallbackEntry.callback := by
        intro earlier
        rw [List.map_append] at once
        exact (List.nodup_append.mp once).2.2 _ earlier _ List.mem_cons_self rfl
      obtain ⟨next, returned, driver, uses⟩ :=
        logged.cb entry (named entry List.mem_cons_self) fresh (filled entry List.mem_cons_self)
      rw [List.foldl_cons]
      have split : source.returned ++ entry :: later = (source.cb entry).returned ++ later := by
        rw [returned, List.append_assoc]
        rfl
      rw [split] at once ⊢
      obtain ⟨last, returned', driver', uses'⟩ := ih next
        (fun other member => uses ▸ named other (List.mem_cons_of_mem _ member)) once
        (fun other member => driver ▸ filled other (List.mem_cons_of_mem _ member))
      exact ⟨last, returned', driver'.trans driver, uses'.trans uses⟩

/-- What was asked later does not change the record. -/
theorem Logged.asked (logged : source.Logged) (driver : Driver) (use : Use)
    (grows : ∀ entry ∈ source.driver.filled, entry ∈ driver.filled) :
    ({ source with driver, uses := source.uses ++ [use] } : Source).Logged := by
  have same (entry : CallbackEntry) (member : entry ∈ source.returned) :
      (source.uses ++ [use])[entry.callback]? = source.uses[entry.callback]? :=
    List.getElem?_append_left (logged.named entry member)
  constructor
  · intro entry member
    dsimp only
    rw [List.length_append]
    exact Nat.lt_add_right _ (logged.named entry member)
  · exact logged.once
  · intro entry member
    exact grows entry (logged.filled entry member)
  · dsimp only
    rw [logged.seedings]
    refine List.flatMap_congr fun entry member => ?_
    rw [seedingsFor, seedingsFor, same entry member]
  · dsimp only
    rw [logged.handings]
    refine List.flatMap_congr fun entry member => ?_
    rw [handingsFor, handingsFor, same entry member]

end Source

/-! ## What stays so -/

/-- The driver agrees with the record: with the number of requests and the callbacks that have
run. -/
def Driver.Sound (driver : Driver) (requests : ℕ) (returned : List CallbackEntry) : Prop :=
  match driver with
  | .jsRandom filled => filled = returned
  | .virtioRng rng => (∃ ringSize, rng.Valid ringSize) ∧ rng.ran = returned ∧ rng.calls = requests

/-- A step of the driver of `virtio-rng` only adds to the callbacks that have run. -/
theorem ran_step (translate : ℕ → ℕ) (rng : Rng) (event : Rng.Event) :
    ∃ later, (rng.step translate event).ran = rng.ran ++ later := by
  have kept : ∃ later, rng.ran = rng.ran ++ later := ⟨[], (List.append_nil _).symm⟩
  cases event with
  | complete element => exact kept
  | ongetbytes u8 =>
      rw [Rng.step]
      split
      · exact kept
      · exact kept
  | irq hasPendingIRQ =>
      rw [Rng.step]
      split
      · exact kept
      · exact kept
  | runImmediate =>
      rw [Rng.step]
      split
      · exact kept
      · rw [Rng.runImmediate]
        split
        · exact kept
        · split
          · exact kept
          · exact ⟨_, rfl⟩
        · exact kept

/-- Only `ongetbytes` is a call. -/
theorem calls_step (translate : ℕ → ℕ) (rng : Rng) {event : Rng.Event}
    (other : ∀ u8, event ≠ .ongetbytes u8) : (rng.step translate event).calls = rng.calls := by
  cases event with
  | complete element => rfl
  | ongetbytes u8 => exact absurd rfl (other u8)
  | irq hasPendingIRQ =>
      rw [Rng.step]
      split
      · rfl
      · rfl
  | runImmediate =>
      rw [Rng.step]
      split
      · rfl
      · rw [Rng.runImmediate]
        split
        · rfl
        · split
          · rfl
          · rfl
        · rfl

namespace Source

/-- A source agrees with its record. -/
structure Sound (source : Source) : Prop where
  logged : source.Logged
  driver : source.driver.Sound source.uses.length source.returned

variable {translate : ℕ → ℕ} {source : Source}

theorem Sound.getBytes (sound : source.Sound) {use : Use} {u8 : Uint8Array}
    (orderly : source.Orderly translate (.getBytes use u8)) :
    (source.getBytes translate use u8).Sound := by
  obtain ⟨logged, agrees⟩ := sound
  obtain ⟨driver, uses, returned, seedings, handings⟩ := source
  cases driver with
  | jsRandom filled =>
      have same : filled = returned := agrees
      subst same
      have asked := logged.asked (.jsRandom (filled ++ [⟨uses.length, u8⟩])) use
        fun entry member => List.mem_append_left _ member
      have fresh : uses.length ∉ filled.map CallbackEntry.callback := by
        intro earlier
        obtain ⟨entry, member, same⟩ := List.mem_map.mp earlier
        have before := logged.named entry member
        dsimp only at before
        omega
      obtain ⟨next, returned, driver, -⟩ := asked.cb ⟨uses.length, u8⟩
        (by
          dsimp only
          rw [List.length_append]
          exact Nat.lt_succ_self _)
        fresh (List.mem_append_right _ List.mem_cons_self)
      refine ⟨next, ?_⟩
      change Driver.Sound (Source.cb _ _).driver _ (Source.cb _ _).returned
      rw [driver, returned]
      rfl
  | virtioRng rng =>
      obtain ⟨⟨ringSize, valid⟩, ran, calls⟩ := agrees
      have running : ¬rng.channel.exchange.stuck = true := by
        rw [valid.inStep.exchange.running]
        exact Bool.false_ne_true
      rw [Source.getBytes]
      dsimp only
      rw [if_neg running]
      refine ⟨logged.asked _ use fun entry member => member, ⟨ringSize, ?_⟩, ran, ?_⟩
      · exact valid.ongetbytes orderly
      · dsimp only at calls ⊢
        rw [List.length_append, ← calls]
        rfl

theorem Sound.advance (sound : source.Sound) {event : Rng.Event}
    (other : ∀ u8, event ≠ .ongetbytes u8)
    (orderly : ∀ rng, source.driver = .virtioRng rng → rng.Orderly translate event) :
    (source.advance translate event).Sound := by
  obtain ⟨logged, agrees⟩ := sound
  obtain ⟨driver, uses, returned, seedings, handings⟩ := source
  cases driver with
  | jsRandom filled => exact ⟨logged, agrees⟩
  | virtioRng rng =>
      obtain ⟨⟨ringSize, valid⟩, ran, calls⟩ := agrees
      dsimp only at ran calls
      subst ran
      obtain ⟨later, more⟩ := ran_step translate rng event
      have nextValid := valid.step (orderly rng rfl)
      have nextCalls := calls_step translate rng other
      rw [Source.advance]
      dsimp only
      rw [more, List.drop_left]
      have changed : Source.Logged
          ⟨.virtioRng (rng.step translate event), uses, rng.ran, seedings, handings⟩ := by
        refine ⟨logged.named, logged.once, fun entry member => ?_, logged.seedings,
          logged.handings⟩
        apply nextValid.own
        rw [more]
        exact List.mem_append_left _ member
      have owned (entry : CallbackEntry) (member : entry ∈ later) :
          entry ∈ (rng.step translate event).channel.owners := by
        rw [nextValid.inStep.callers, ← nextValid.ran, more]
        exact List.mem_append_left _ (List.mem_append_right _ member)
      obtain ⟨next, returned, driver, asked⟩ := changed.foldl_cb later
        (fun entry member => by
          have before := nextValid.named entry.callback (List.mem_map_of_mem (owned entry member))
          rw [nextCalls, calls] at before
          exact before)
        (by
          have once := nextValid.matched.once
          rw [more] at once
          exact once)
        (fun entry member => by
          apply nextValid.own
          rw [more]
          exact List.mem_append_right _ member)
      refine ⟨next, ?_⟩
      rw [driver, returned, asked]
      exact ⟨⟨ringSize, nextValid⟩, more, nextCalls.trans calls⟩

/-- **Every orderly step** keeps a source in agreement with its record. -/
theorem Sound.step (sound : source.Sound) {event : Event}
    (orderly : source.Orderly translate event) : (source.step translate event).Sound := by
  cases event with
  | getBytes use u8 => exact sound.getBytes orderly
  | complete element =>
      refine sound.advance (fun u8 same => by cases same) fun rng isVirtio => ?_
      rw [Orderly, isVirtio] at orderly
      exact orderly
  | irq hasPendingIRQ => exact sound.advance (fun u8 same => by cases same) fun rng _ => trivial
  | runImmediate => exact sound.advance (fun u8 same => by cases same) fun rng _ => trivial

theorem sound_create {kind : Kind} (allowed : (Event.create kind).SizeAllowed) :
    kind.create.Sound := by
  have logged : kind.create.Logged := by
    cases kind with
    | jsRandom =>
        exact ⟨fun _ member => absurd member List.not_mem_nil, List.nodup_nil,
          fun _ member => absurd member List.not_mem_nil, rfl, rfl⟩
    | virtioRng memory exponent =>
        exact ⟨fun _ member => absurd member List.not_mem_nil, List.nodup_nil,
          fun _ member => absurd member List.not_mem_nil, rfl, rfl⟩
  refine ⟨logged, ?_⟩
  cases kind with
  | jsRandom => rfl
  | virtioRng memory exponent =>
      exact ⟨⟨_, Rng.valid_create memory ⟨exponent, allowed, rfl⟩⟩, rfl, rfl⟩

end Source

/-! ## Every run -/

/-- **In every orderly run** the sources agree with their records. -/
theorem sound_after (translate : ℕ → ℕ) {events : List Event}
    (orderly : Transition.Along (Entropy.step translate) (Entropy.Orderly translate) {} events) :
    ∀ source ∈ (Entropy.after translate events).sources, source.Sound := by
  unfold Entropy.after
  refine Transition.run_invariant
    (fun entropy : Entropy => ∀ source ∈ entropy.sources, source.Sound) ?_ ?_ orderly
  · rintro entropy event sound ⟨allowed, orderly⟩ source member
    obtain existing | created := List.mem_append.mp member
    · cases happens : entropy.dispatch event with
      | none =>
          rw [happens] at existing
          exact sound source existing
      | some happening =>
          obtain ⟨index, happening⟩ := happening
          rw [happens] at existing orderly
          -- The source is the one to which something happens, or was there before.
          obtain ⟨i, lt, rfl⟩ := List.mem_iff_getElem.mp existing
          rw [List.length_modify] at lt
          rw [List.getElem_modify]
          split
          · next same =>
              subst same
              exact (sound _ (List.getElem_mem lt)).step
                (orderly _ (List.getElem?_eq_getElem lt))
          · exact sound _ (List.getElem_mem lt)
    · cases event with
      | create kind =>
          rw [List.mem_singleton.mp created]
          exact Source.sound_create allowed
      | addEntropySource index address => cases created
      | getTrueRandomValues value isFunction address => cases created
      | complete index element => cases created
      | irq index hasPendingIRQ => cases created
      | runImmediate index => cases created
  · intro source member
    cases member

/-! ## One request -/

/-- Of lists with keys that differ, the elements with a key are those of one list. -/
theorem filter_flatMap_of_keys {α β κ : Type} [DecidableEq κ] (key : α → κ) (keyOf : β → κ)
    (f : α → List β) (keys : ∀ a, ∀ b ∈ f a, keyOf b = key a) {list : List α}
    (nodup : (list.map key).Nodup) {a : α} (member : a ∈ list) :
    ((list.flatMap f).filter fun b => keyOf b = key a) = f a := by
  obtain ⟨before, after, rfl⟩ := List.append_of_mem member
  rw [List.map_append, List.map_cons] at nodup
  have others (part : List α) (differ : key a ∉ part.map key) :
      ((part.flatMap f).filter fun b => keyOf b = key a) = [] := by
    refine List.filter_eq_nil_iff.mpr fun b inPart => ?_
    obtain ⟨other, inList, isOf⟩ := List.mem_flatMap.mp inPart
    rw [decide_eq_true_iff, keys other b isOf]
    intro same
    exact differ (List.mem_map.mpr ⟨other, inList, same⟩)
  have own : ((f a).filter fun b => keyOf b = key a) = f a :=
    List.filter_eq_self.mpr fun b isOf => decide_eq_true (keys a b isOf)
  obtain ⟨-, cons, apart⟩ := List.nodup_append.mp nodup
  rw [List.flatMap_append, List.flatMap_cons, List.filter_append, List.filter_append, own,
    others before fun earlier => apart _ earlier _ List.mem_cons_self rfl,
    others after (List.nodup_cons.mp cons).1, List.append_nil, List.nil_append]

namespace Source

variable {source : Source}

/-- **A request that is completed has called back.** -/
theorem Sound.returned_of_completed (sound : source.Sound) {entry : CallbackEntry}
    (completed : source.Completed entry) : entry ∈ source.returned := by
  obtain returned | ⟨filled, idle⟩ := completed
  · exact returned
  · have agrees := sound.driver
    cases isDriver : source.driver with
    | jsRandom done =>
        rw [isDriver] at agrees filled
        have same : done = source.returned := agrees
        rw [← same]
        exact filled
    | virtioRng rng =>
        rw [isDriver] at agrees filled idle
        obtain ⟨⟨ringSize, valid⟩, ran, -⟩ := agrees
        obtain ⟨pending, scheduled⟩ := idle
        have published := valid.inStep.published_length
        have handed := valid.inStep.handed
        rw [pending] at published
        rw [scheduled] at handed
        have served : rng.channel.completed = rng.channel.served := by
          rw [valid.inStep.completed, published, List.length_nil, Nat.add_zero, ← handed,
            Nat.add_zero, valid.inStep.callers]
          exact List.take_left
        rw [← ran, valid.ran, ← served]
        exact filled

/-- What is in the record for a request that has called back. -/
theorem Sound.seedings_of_returned (sound : source.Sound) {entry : CallbackEntry}
    (returned : entry ∈ source.returned) :
    (source.seedings.filter fun seeding => seeding.callback = entry.callback) =
        seedingsFor source.uses entry ∧
      (source.handings.filter fun handing => handing.callback = entry.callback) =
        handingsFor source.uses entry := by
  rw [sound.logged.seedings, sound.logged.handings]
  constructor
  · refine filter_flatMap_of_keys CallbackEntry.callback Seeding.callback _ ?_ sound.logged.once
      returned
    intro other seeding isOf
    obtain ⟨use, -, rfl⟩ := List.mem_map.mp isOf
    rfl
  · refine filter_flatMap_of_keys CallbackEntry.callback Handing.callback _ ?_ sound.logged.once
      returned
    intro other handing isOf
    obtain ⟨use, -, inHanded⟩ := List.mem_flatMap.mp isOf
    obtain ⟨u8, -, rfl⟩ := List.mem_map.mp inHanded
    rfl

/-- **A completed request seeds the generator with its array** exactly if `getTrueRandomValues`
has made it. -/
theorem Sound.seededRight_iff_use (sound : source.Sound) {entry : CallbackEntry}
    (completed : source.Completed entry) :
    source.SeededRight entry ↔ source.uses[entry.callback]? = some .getTrueRandomValues := by
  have returned := sound.returned_of_completed completed
  obtain ⟨seedings, handings⟩ := sound.seedings_of_returned returned
  have named := sound.logged.named entry returned
  have found := List.getElem?_eq_getElem named
  cases use : source.uses[entry.callback] with
  | addEntropySource =>
      rw [use] at found
      refine iff_of_false (fun right => ?_) (by rw [found]; exact fun same => by cases same)
      have undefined := right.seeded
      rw [seedings, seedingsFor, found] at undefined
      cases undefined
  | getTrueRandomValues =>
      rw [use] at found
      refine iff_of_true ⟨?_, fun _ => ?_⟩ found
      · rw [seedings, seedingsFor, found]
        rfl
      · rw [handings, handingsFor, found]
        rfl

end Source

/-- **Entropy reaches the generator from `getTrueRandomValues` alone**: in every orderly run, a
completed request seeds the generator once with its own array, after that was filled, exactly if
`getTrueRandomValues` has made it, and then the array is handed on. -/
theorem seededRight_iff (translate : ℕ → ℕ) {events : List Event}
    (orderly : Transition.Along (Entropy.step translate) (Entropy.Orderly translate) {} events)
    {source : Source} (member : source ∈ (Entropy.after translate events).sources)
    {entry : CallbackEntry} (completed : source.Completed entry) :
    source.SeededRight entry ↔ source.uses[entry.callback]? = some .getTrueRandomValues :=
  (sound_after translate orderly source member).seededRight_iff_use completed

/-- A source is added, sixteen bytes are asked for, and the device fills both arrays in turn. -/
def sixteenBytes : List Event :=
  [.create (.virtioRng Virtio.Exchange.zeroMemory 3), .addEntropySource 0 0x1000,
    .getTrueRandomValues (.number 16) true 0x2000, .complete 0 ⟨0, 8⟩, .complete 0 ⟨1, 16⟩,
    .irq 0 true, .runImmediate 0, .runImmediate 0]

/-- The second request seeds the generator with the sixteen bytes. -/
theorem seededRight_iff_sixteenBytes :
    ∃ source ∈ (Entropy.after id sixteenBytes).sources,
      source.SeededRight ⟨1, ⟨0x2000, 16⟩⟩ := by
  have nonempty : (Entropy.after id sixteenBytes).sources ≠ [] := by decide +kernel
  have orderly : Transition.Along (Entropy.step id) (Entropy.Orderly id) {} sixteenBytes := by
    decide +kernel
  have known : ∀ source ∈ (Entropy.after id sixteenBytes).sources,
      ⟨1, ⟨0x2000, 16⟩⟩ ∈ source.returned ∧ source.uses[1]? = some .getTrueRandomValues := by
    decide +kernel
  have member := List.head_mem nonempty
  exact ⟨_, member,
    (seededRight_iff id orderly member (.inl (known _ member).1)).mpr (known _ member).2⟩

/-- With the source `js-random`, which is added first of all, the generator is seeded with
`undefined`. -/
theorem jsRandom_not_seededRight :
    ∃ source ∈ (Entropy.after id [.create .jsRandom, .addEntropySource 0 0x1000]).sources,
      source.Completed ⟨0, ⟨0x1000, 8⟩⟩ ∧ source.seedings = [⟨0, none, true⟩] ∧
        ¬source.SeededRight ⟨0, ⟨0x1000, 8⟩⟩ := by
  refine ⟨_, List.mem_cons_self, .inl (by decide), rfl, fun right => ?_⟩
  exact absurd right.seeded (by decide)

end JsOS.Core.Random
