import JsOS.Kernel.Interrupts
import Mathlib.Data.BitVec

/-! # Resources

Scripts get at the machine through resource objects: ranges of memory, ports and interrupts,
from which smaller ranges, blocks, ports and interrupts can be made. A request is given by
numbers; a resource should be made exactly if the request lies in the range (`Exact`). The
calls narrow the numbers to the width of the range before they look, so that a request far out
can stand for one inside, and a block may not reach the end of its range (`exact_iff`).
-/

namespace JsOS.Kernel

/-- A `Range`, from its first value to its last. -/
structure Range where
  begin_ : Nat
  end_ : Nat
  deriving DecidableEq, Repr

namespace Range

/-- `IsSubrangeOf`. -/
def isSubrangeOf (range other : Range) : Bool :=
  range.begin_ ≥ other.begin_ && range.end_ ≤ other.end_

/-- `Contains`. -/
def contains (range : Range) (value : Nat) : Bool := value ≥ range.begin_ && value ≤ range.end_

end Range

/-- The resource objects. -/
inductive Resource where
  | memoryRange (memory_range_ : Range)
  | ioRange (io_range_ : Range)
  | irqRange (irq_range_ : Range)
  | memoryBlock (base size : Nat)
  | ioPort (port_number_ : Nat)
  | irq (irq_number_ : Nat)
  deriving DecidableEq, Repr

/-- The calls of their methods, with the numbers passed. -/
inductive ResourceCall where
  | subrange (arg0 arg1 : Nat)
  | block (arg0 arg1 : Nat)
  | port (arg0 : Nat)
  | offsetPort (arg0 : Nat)
  | irq (arg0 : Nat)
  deriving DecidableEq, Repr

/-- What a call does. -/
inductive Outcome where
  | returned (resource : Resource)
  | rangeError (message : String)
  /-- The object has no such method. -/
  | typeError
  /-- An assertion fails. -/
  | assertion
  deriving DecidableEq, Repr

namespace Resource

/-- `Uint32Value` of a number. -/
def uint32Value (number : Nat) : Nat := number % 2 ^ 32

/-- A number as a `size_t`. -/
def toSize (number : Nat) : Nat := number % 2 ^ 64

/-- `ResourceMemoryRangeObject::Subrange`. -/
def memorySubrange (memory_range_ : Range) (arg0 arg1 : Nat) : Outcome :=
  let begin_ := toSize arg0
  let end_ := toSize arg1
  if begin_ > end_ then .rangeError "subrange: invalid range (begin > end)"
  else
    let subrange : Range := ⟨begin_, end_⟩
    if !subrange.isSubrangeOf memory_range_ then
      .rangeError "subrange: invalid range (out of bounds)"
    else .returned (.memoryRange subrange)

/-- `Block`. -/
def block (memory_range_ : Range) (arg0 arg1 : Nat) : Outcome :=
  let base := toSize arg0
  let size := uint32Value arg1
  let subrange : Range := ⟨base, toSize (base + size)⟩
  if subrange.begin_ > subrange.end_ then .assertion
  else if !subrange.isSubrangeOf memory_range_ then .rangeError "block: out of bounds"
  else .returned (.memoryBlock base size)

/-- `ResourceIORangeObject::Subrange`. The range is one of 16-bit numbers. -/
def ioSubrange (io_range_ : Range) (arg0 arg1 : Nat) : Outcome :=
  let begin_ := uint32Value arg0
  let end_ := uint32Value arg1
  if begin_ > end_ then .rangeError "subrange: invalid range (begin > end)"
  else
    let subrange : Range := ⟨begin_ % 2 ^ 16, end_ % 2 ^ 16⟩
    if subrange.begin_ > subrange.end_ then .assertion
    else if !subrange.isSubrangeOf io_range_ then
      .rangeError "subrange: invalid range (out of bounds)"
    else .returned (.ioRange subrange)

/-- `Port`. -/
def port (io_range_ : Range) (arg0 : Nat) : Outcome :=
  let number := uint32Value arg0
  if !io_range_.contains (number % 2 ^ 16) then
    .rangeError "port: invalid port number (required <= 0xffff)"
  else .returned (.ioPort (number % 2 ^ 16))

/-- `OffsetPort`. -/
def offsetPort (io_range_ : Range) (arg0 : Nat) : Outcome :=
  let number := uint32Value (io_range_.begin_ + uint32Value arg0)
  if !io_range_.contains (number % 2 ^ 16) then
    .rangeError "offsetPort: port offset is out of range"
  else .returned (.ioPort (number % 2 ^ 16))

/-- `Irq`. The range is one of 8-bit numbers. -/
def irqObject (irq_range_ : Range) (arg0 : Nat) : Outcome :=
  let number := uint32Value arg0
  if !irq_range_.contains (number % 2 ^ 8) then .rangeError "irq: irq number is out of range"
  else .returned (.irq (number % 2 ^ 8))

/-- A call of a method. -/
def apply : Resource → ResourceCall → Outcome
  | .memoryRange range, .subrange arg0 arg1 => memorySubrange range arg0 arg1
  | .memoryRange range, .block arg0 arg1 => block range arg0 arg1
  | .ioRange range, .subrange arg0 arg1 => ioSubrange range arg0 arg1
  | .ioRange range, .port arg0 => port range arg0
  | .ioRange range, .offsetPort arg0 => offsetPort range arg0
  | .irqRange range, .irq arg0 => irqObject range arg0
  | _, _ => .typeError

/-- The resource that a chain of calls gives, if each call returns one. -/
def derive (resource : Resource) : List ResourceCall → Option Resource
  | [] => some resource
  | call :: calls =>
      match resource.apply call with
      | .returned next => next.derive calls
      | _ => none

/-- The ranges of `GetSystemResources`. -/
def systemResources : List Resource :=
  [.memoryRange ⟨0, 0xffffffff⟩, .ioRange ⟨1, 0xffff⟩, .irqRange ⟨1, 255⟩]

/-! ## What is meant -/

/-- What a call asks for, if it lies in the range: a range of values, the bytes from an address
on, a port or an interrupt. -/
def requested : Resource → ResourceCall → Option Resource
  | .memoryRange range, .subrange first last =>
      if first ≤ last ∧ range.begin_ ≤ first ∧ last ≤ range.end_ then
        some (.memoryRange ⟨first, last⟩)
      else none
  | .memoryRange range, .block base size =>
      if range.begin_ ≤ base ∧ base + size ≤ range.end_ + 1 then some (.memoryBlock base size)
      else none
  | .ioRange range, .subrange first last =>
      if first ≤ last ∧ range.begin_ ≤ first ∧ last ≤ range.end_ then some (.ioRange ⟨first, last⟩)
      else none
  | .ioRange range, .port number =>
      if range.begin_ ≤ number ∧ number ≤ range.end_ then some (.ioPort number) else none
  | .ioRange range, .offsetPort offset =>
      if range.begin_ + offset ≤ range.end_ then some (.ioPort (range.begin_ + offset)) else none
  | .irqRange range, .irq number =>
      if range.begin_ ≤ number ∧ number ≤ range.end_ then some (.irq number) else none
  | _, _ => none

/-- The call throws. -/
def Throws : Outcome → Prop
  | .rangeError _ => True
  | .typeError => True
  | _ => False

/-- **A call is exact**: it returns what was asked for if that lies in the range, and throws
otherwise; and an interrupt that it returns can be bound. -/
structure Exact (resource : Resource) (call : ResourceCall) : Prop where
  returns : ∀ asked, resource.requested call = some asked → resource.apply call = .returned asked
  throws : resource.requested call = none → Throws (resource.apply call)
  bindable : ∀ number, resource.apply call = .returned (.irq number) → number < kIrqCount

/-- The numbers fit, or what is left of them after narrowing is outside the range; a block does
not reach just to the end of the range; and an interrupt has a number that can be bound. -/
def Fits : Resource → ResourceCall → Prop
  | .memoryRange range, .block base size =>
      ¬(range.begin_ ≤ base ∧ base + size = range.end_ + 1) ∧
        (size < 2 ^ 32 ∨ ¬(range.begin_ ≤ base ∧ base + size % 2 ^ 32 ≤ range.end_))
  | .ioRange range, .subrange first last =>
      (first < 2 ^ 16 ∧ last < 2 ^ 16) ∨ last % 2 ^ 32 < first % 2 ^ 32 ∨
        (first % 2 ^ 16 ≤ last % 2 ^ 16 ∧
          ¬(range.begin_ ≤ first % 2 ^ 16 ∧ last % 2 ^ 16 ≤ range.end_))
  | .ioRange range, .port number =>
      number < 2 ^ 16 ∨ ¬(range.begin_ ≤ number % 2 ^ 16 ∧ number % 2 ^ 16 ≤ range.end_)
  | .ioRange range, .offsetPort offset =>
      range.begin_ + offset < 2 ^ 16 ∨
        ¬(range.begin_ ≤ (range.begin_ + offset) % 2 ^ 16 ∧
          (range.begin_ + offset) % 2 ^ 16 ≤ range.end_)
  | .irqRange range, .irq number =>
      number < kIrqCount ∨ ¬(range.begin_ ≤ number % 2 ^ 8 ∧ number % 2 ^ 8 ≤ range.end_)
  | _, _ => True

/-- The numbers are integers that a double holds exactly. -/
def Safe : ResourceCall → Prop
  | .subrange arg0 arg1 => arg0 < 2 ^ 53 ∧ arg1 < 2 ^ 53
  | .block arg0 arg1 => arg0 < 2 ^ 53 ∧ arg1 < 2 ^ 53
  | .port arg0 => arg0 < 2 ^ 53
  | .offsetPort arg0 => arg0 < 2 ^ 53
  | .irq arg0 => arg0 < 2 ^ 53

/-! ## Ranges that can be had -/

/-- The ranges lie in those of the system. -/
def Confined : Resource → Prop
  | .memoryRange range => range.begin_ ≤ range.end_ ∧ range.end_ < 2 ^ 32
  | .ioRange range => range.begin_ ≤ range.end_ ∧ range.end_ < 2 ^ 16
  | .irqRange range => range = ⟨1, 255⟩
  | _ => True

/-! ## What the calls do -/

theorem if_isSubrangeOf {α : Type} (range other : Range) (outside inside : α) :
    (if !range.isSubrangeOf other then outside else inside) =
      if other.begin_ ≤ range.begin_ ∧ range.end_ ≤ other.end_ then inside else outside := by
  by_cases within : other.begin_ ≤ range.begin_ ∧ range.end_ ≤ other.end_
  · have holds : range.isSubrangeOf other = true := by
      simpa [Range.isSubrangeOf] using within
    simp [holds, within]
  · have fails : range.isSubrangeOf other = false := by
      simpa [Range.isSubrangeOf] using within
    rw [if_neg within, fails]
    rfl

theorem if_contains {α : Type} (range : Range) (value : Nat) (outside inside : α) :
    (if !range.contains value then outside else inside) =
      if range.begin_ ≤ value ∧ value ≤ range.end_ then inside else outside := by
  have same := if_isSubrangeOf ⟨value, value⟩ range outside inside
  exact same

theorem port_eq (range : Range) (number : Nat) : port range number =
    if range.begin_ ≤ number % 2 ^ 16 ∧ number % 2 ^ 16 ≤ range.end_ then
      .returned (.ioPort (number % 2 ^ 16))
    else .rangeError "port: invalid port number (required <= 0xffff)" := by
  have narrowed : uint32Value number % 2 ^ 16 = number % 2 ^ 16 := by
    unfold uint32Value
    omega
  unfold port
  dsimp only
  rw [narrowed, if_contains]

theorem offsetPort_eq (range : Range) (offset : Nat) : offsetPort range offset =
    if range.begin_ ≤ (range.begin_ + offset) % 2 ^ 16 ∧
        (range.begin_ + offset) % 2 ^ 16 ≤ range.end_ then
      .returned (.ioPort ((range.begin_ + offset) % 2 ^ 16))
    else .rangeError "offsetPort: port offset is out of range" := by
  have narrowed : uint32Value (range.begin_ + uint32Value offset) % 2 ^ 16 =
      (range.begin_ + offset) % 2 ^ 16 := by
    unfold uint32Value
    omega
  unfold offsetPort
  dsimp only
  rw [narrowed, if_contains]

theorem irqObject_eq (range : Range) (number : Nat) : irqObject range number =
    if range.begin_ ≤ number % 2 ^ 8 ∧ number % 2 ^ 8 ≤ range.end_ then
      .returned (.irq (number % 2 ^ 8))
    else .rangeError "irq: irq number is out of range" := by
  have narrowed : uint32Value number % 2 ^ 8 = number % 2 ^ 8 := by
    unfold uint32Value
    omega
  unfold irqObject
  dsimp only
  rw [narrowed, if_contains]

theorem memorySubrange_eq (range : Range) {first last : Nat} (small : first < 2 ^ 53)
    (small' : last < 2 ^ 53) : memorySubrange range first last =
    if first > last then .rangeError "subrange: invalid range (begin > end)"
    else if range.begin_ ≤ first ∧ last ≤ range.end_ then .returned (.memoryRange ⟨first, last⟩)
    else .rangeError "subrange: invalid range (out of bounds)" := by
  have whole : toSize first = first := Nat.mod_eq_of_lt (by omega)
  have whole' : toSize last = last := Nat.mod_eq_of_lt (by omega)
  unfold memorySubrange
  dsimp only
  rw [whole, whole', if_isSubrangeOf]

theorem block_eq (range : Range) {base size : Nat} (small : base < 2 ^ 53) :
    block range base size =
      if range.begin_ ≤ base ∧ base + size % 2 ^ 32 ≤ range.end_ then
        .returned (.memoryBlock base (size % 2 ^ 32))
      else .rangeError "block: out of bounds" := by
  have whole : toSize base = base := Nat.mod_eq_of_lt (by omega)
  have sum : toSize (base + uint32Value size) = base + size % 2 ^ 32 := by
    unfold toSize uint32Value
    omega
  unfold block
  dsimp only
  rw [whole, sum, if_neg (by omega), if_isSubrangeOf]
  rfl

theorem ioSubrange_eq (range : Range) (first last : Nat) : ioSubrange range first last =
    if first % 2 ^ 32 > last % 2 ^ 32 then .rangeError "subrange: invalid range (begin > end)"
    else if first % 2 ^ 16 > last % 2 ^ 16 then .assertion
    else if range.begin_ ≤ first % 2 ^ 16 ∧ last % 2 ^ 16 ≤ range.end_ then
      .returned (.ioRange ⟨first % 2 ^ 16, last % 2 ^ 16⟩)
    else .rangeError "subrange: invalid range (out of bounds)" := by
  have narrowed (number : Nat) : uint32Value number % 2 ^ 16 = number % 2 ^ 16 := by
    unfold uint32Value
    omega
  unfold ioSubrange
  dsimp only
  rw [narrowed, narrowed, if_isSubrangeOf]
  rfl

/-! ## The ranges of a chain -/

theorem confined_systemResources : ∀ root ∈ systemResources, Confined root := by
  intro root listed
  simp only [systemResources, List.mem_cons, List.not_mem_nil, or_false] at listed
  rcases listed with rfl | rfl | rfl
  · exact ⟨by decide, by decide⟩
  · exact ⟨by decide, by decide⟩
  · rfl

/-- What a call returns is confined if its receiver is. -/
theorem confined_apply {resource next : Resource} {call : ResourceCall} (safe : Safe call)
    (confined : Confined resource) (made : resource.apply call = .returned next) :
    Confined next := by
  cases resource <;> cases call <;> try cases made
  case memoryRange.subrange range first last =>
    change memorySubrange range first last = _ at made
    rw [memorySubrange_eq range safe.1 safe.2] at made
    split at made
    · cases made
    · split at made
      · rename_i ordered within
        obtain ⟨_, ends⟩ := confined
        cases made
        exact ⟨by dsimp only; omega, by dsimp only; omega⟩
      · cases made
  case memoryRange.block range base size =>
    change block range base size = _ at made
    rw [block_eq range safe.1] at made
    split at made
    · cases made
      trivial
    · cases made
  case ioRange.subrange range first last =>
    change ioSubrange range first last = _ at made
    rw [ioSubrange_eq] at made
    split at made
    · cases made
    · split at made
      · cases made
      · split at made
        · rename_i ordered within
          cases made
          exact ⟨by dsimp only; omega, by dsimp only; omega⟩
        · cases made
  case ioRange.port range number =>
    change port range number = _ at made
    rw [port_eq] at made
    split at made
    · cases made
      trivial
    · cases made
  case ioRange.offsetPort range offset =>
    change offsetPort range offset = _ at made
    rw [offsetPort_eq] at made
    split at made
    · cases made
      trivial
    · cases made
  case irqRange.irq range number =>
    change irqObject range number = _ at made
    rw [irqObject_eq] at made
    split at made
    · cases made
      trivial
    · cases made

theorem confined_derive {calls : List ResourceCall} {resource receiver : Resource}
    (safe : ∀ call ∈ calls, Safe call) (confined : Confined resource)
    (derived : resource.derive calls = some receiver) : Confined receiver := by
  induction calls generalizing resource with
  | nil =>
    cases derived
    exact confined
  | cons call calls later =>
    rw [derive] at derived
    split at derived
    · rename_i next made
      have kept := confined_apply (safe call List.mem_cons_self) confined made
      exact later (fun each among => safe each (List.mem_cons_of_mem _ among)) kept derived
    · cases derived

/-! ## Exact calls -/

/-- A call that returns `made` if `inside` holds is exact if that is when `asked` holds, and what
is made is what is wanted. -/
theorem exact_iff_of {resource made wanted : Resource} {call : ResourceCall} {message : String}
    {inside asked : Prop} [Decidable inside] [Decidable asked]
    (applies : resource.apply call = if inside then .returned made else .rangeError message)
    (asks : resource.requested call = if asked then some wanted else none) :
    Exact resource call ↔ (asked → inside ∧ made = wanted) ∧ (inside → asked) ∧
      (inside → ∀ number, made = .irq number → number < kIrqCount) := by
  constructor
  · intro exact_
    refine ⟨fun wants => ?_, fun within => ?_, fun within number isIrq => ?_⟩
    · have returned := exact_.returns wanted (by rw [asks, if_pos wants])
      rw [applies] at returned
      by_cases within : inside
      · rw [if_pos within] at returned
        cases returned
        exact ⟨within, rfl⟩
      · rw [if_neg within] at returned
        cases returned
    · by_contra unasked
      have thrown := exact_.throws (by rw [asks, if_neg unasked])
      rw [applies, if_pos within] at thrown
      exact thrown
    · apply exact_.bindable number
      rw [applies, if_pos within, isIrq]
  · rintro ⟨serves, confines, binds⟩
    constructor
    · intro wanted' wants
      rw [asks] at wants
      by_cases holds : asked
      · rw [if_pos holds] at wants
        cases wants
        obtain ⟨within, same⟩ := serves holds
        rw [applies, if_pos within, same]
      · rw [if_neg holds] at wants
        cases wants
    · intro unasked
      rw [asks] at unasked
      by_cases holds : asked
      · rw [if_pos holds] at unasked
        cases unasked
      · rw [applies, if_neg fun within => holds (confines within)]
        trivial
    · intro number returned
      rw [applies] at returned
      by_cases within : inside
      · rw [if_pos within] at returned
        cases returned
        exact binds within number rfl
      · rw [if_neg within] at returned
        cases returned

/-- A call of a method that the object does not have is exact: it throws. -/
theorem exact_typeError {resource : Resource} {call : ResourceCall}
    (applies : resource.apply call = .typeError) (asks : resource.requested call = none) :
    Exact resource call := by
  constructor
  · intro wanted wants
    rw [asks] at wants
    cases wants
  · intro _
    rw [applies]
    trivial
  · intro number returned
    rw [applies] at returned
    cases returned

theorem exact_ioSubrange {range : Range} {first last : Nat} (confined : Confined (ioRange range)) :
    Exact (ioRange range) (.subrange first last) ↔
      Fits (ioRange range) (.subrange first last) := by
  obtain ⟨_, ends⟩ := confined
  by_cases reversed : first % 2 ^ 32 > last % 2 ^ 32
  · -- The check before narrowing to 16 bits.
    have throws : (ioRange range).apply (.subrange first last) =
        if False then .returned (ioRange range)
        else .rangeError "subrange: invalid range (begin > end)" := by
      rw [if_neg (by simp)]
      change ioSubrange range first last = _
      rw [ioSubrange_eq, if_pos reversed]
    rw [@exact_iff_of _ _ (ioRange ⟨first, last⟩) _ _ _ _ _ _ throws rfl]
    simp only [Fits, reversed, false_implies, and_true, true_or, or_true, iff_true, false_and]
    intro asked
    omega
  · by_cases crossed : first % 2 ^ 16 > last % 2 ^ 16
    · have fails : (ioRange range).apply (.subrange first last) = .assertion := by
        change ioSubrange range first last = _
        rw [ioSubrange_eq, if_neg reversed, if_pos crossed]
      constructor
      · intro exact_
        cases asks : (ioRange range).requested (.subrange first last) with
        | none =>
          have thrown := exact_.throws asks
          rw [fails] at thrown
          exact thrown.elim
        | some wanted =>
          have returned := exact_.returns wanted asks
          rw [fails] at returned
          cases returned
      · intro fits
        simp only [Fits] at fits
        omega
    · have applies : (ioRange range).apply (.subrange first last) =
          if range.begin_ ≤ first % 2 ^ 16 ∧ last % 2 ^ 16 ≤ range.end_ then
            .returned (.ioRange ⟨first % 2 ^ 16, last % 2 ^ 16⟩)
          else .rangeError "subrange: invalid range (out of bounds)" := by
        change ioSubrange range first last = _
        rw [ioSubrange_eq, if_neg reversed, if_neg crossed]
      rw [@exact_iff_of _ _ (ioRange ⟨first, last⟩) _ _ _ _ _ _ applies rfl]
      simp only [Fits, reduceCtorEq, false_implies, implies_true, and_true, ioRange.injEq,
        Range.mk.injEq]
      constructor
      · rintro ⟨serves, confines⟩
        by_cases inside : range.begin_ ≤ first % 2 ^ 16 ∧ last % 2 ^ 16 ≤ range.end_
        · have same := (serves (confines inside)).2
          omega
        · omega
      · intro fits
        constructor <;> intro asked <;> omega

/-- A call of a confined object is exact if and only if its numbers fit. -/
theorem exact_iff_of_confined {resource : Resource} {call : ResourceCall} (safe : Safe call)
    (confined : Confined resource) : Exact resource call ↔ Fits resource call := by
  cases resource <;> cases call <;>
    try exact iff_of_true (exact_typeError rfl rfl) trivial
  case memoryRange.subrange range first last =>
    refine iff_of_true ?_ trivial
    by_cases reversed : first > last
    · have throws : (memoryRange range).apply (.subrange first last) =
          if False then .returned (memoryRange range)
          else .rangeError "subrange: invalid range (begin > end)" := by
        rw [if_neg (by simp)]
        change memorySubrange range first last = _
        rw [memorySubrange_eq range safe.1 safe.2, if_pos reversed]
      rw [@exact_iff_of _ _ (memoryRange ⟨first, last⟩) _ _ _ _ _ _ throws rfl]
      refine ⟨fun asked => ?_, False.elim, False.elim⟩
      omega
    · have applies : (memoryRange range).apply (.subrange first last) =
          if range.begin_ ≤ first ∧ last ≤ range.end_ then
            .returned (.memoryRange ⟨first, last⟩)
          else .rangeError "subrange: invalid range (out of bounds)" := by
        change memorySubrange range first last = _
        rw [memorySubrange_eq range safe.1 safe.2, if_neg reversed]
      rw [exact_iff_of applies rfl]
      refine ⟨fun asked => ⟨asked.2, rfl⟩, fun within => ⟨by omega, within⟩, fun _ => ?_⟩
      intro number isIrq
      cases isIrq
  case memoryRange.block range base size =>
    obtain ⟨_, ends⟩ := confined
    have applies := @block_eq range base size safe.1
    rw [@exact_iff_of (memoryRange range) _ (memoryBlock base size) (.block base size) _ _ _ _ _
      applies rfl]
    simp only [Fits, reduceCtorEq, false_implies, implies_true, and_true, memoryBlock.injEq,
      true_and]
    omega
  case ioRange.subrange range first last => exact exact_ioSubrange confined
  case ioRange.port range number =>
    obtain ⟨_, ends⟩ := confined
    rw [@exact_iff_of (ioRange range) _ (ioPort number) (.port number) _ _ _ _ _
      (port_eq range number) rfl]
    simp only [Fits, reduceCtorEq, false_implies, implies_true, and_true, ioPort.injEq]
    omega
  case ioRange.offsetPort range offset =>
    obtain ⟨_, ends⟩ := confined
    rw [@exact_iff_of (ioRange range) _ (ioPort (range.begin_ + offset)) (.offsetPort offset)
      _ _ _ _ _ (offsetPort_eq range offset) rfl]
    simp only [Fits, reduceCtorEq, false_implies, implies_true, and_true, ioPort.injEq]
    omega
  case irqRange.irq range number =>
    cases confined
    rw [@exact_iff_of (irqRange ⟨1, 255⟩) _ (irq number) (.irq number) _ _ _ _ _
      (irqObject_eq _ number) rfl]
    simp only [Fits, irq.injEq, kIrqCount, forall_eq']
    omega

/-- **Resources.** A call of an object that a chain of calls gives from those of the system is
exact if and only if its numbers fit. -/
theorem exact_iff {root receiver : Resource} {calls : List ResourceCall} {call : ResourceCall}
    (system : root ∈ systemResources) (safeCalls : ∀ earlier ∈ calls, Safe earlier)
    (derived : root.derive calls = some receiver) (safe : Safe call) :
    Exact receiver call ↔ Fits receiver call := by
  have confined := confined_derive safeCalls (confined_systemResources root system) derived
  exact exact_iff_of_confined safe confined

/-- The ports of the keyboard controller: a subrange, and a port of it. -/
theorem exact_iff_keyboard : Exact (ioRange ⟨0x60, 0x64⟩) (.port 0x60) ↔
    Fits (ioRange ⟨0x60, 0x64⟩) (.port 0x60) :=
  @exact_iff (ioRange ⟨1, 0xffff⟩) _ [.subrange 0x60 0x64] _ (by decide)
    (by
      intro earlier listed
      rw [List.mem_singleton] at listed
      rw [listed]
      exact ⟨by decide, by decide⟩)
    rfl (show (0x60 : Nat) < 2 ^ 53 by decide)

/-- Interrupt 257 is not in the range and is answered with interrupt 1; interrupt 255 is returned
but has no entry; the last block of memory is refused; and ports 0x10060 and up stand for those of
the keyboard. -/
theorem system_not_exact :
    (irqRange ⟨1, 255⟩).apply (.irq 257) = .returned (.irq 1) ∧
      (irqRange ⟨1, 255⟩).requested (.irq 257) = none ∧
      (irqRange ⟨1, 255⟩).apply (.irq 255) = .returned (.irq 255) ∧ ¬255 < kIrqCount ∧
      (memoryRange ⟨0, 0xffffffff⟩).apply (.block 0xf0000000 0x10000000) =
        .rangeError "block: out of bounds" ∧
      (memoryRange ⟨0, 0xffffffff⟩).requested (.block 0xf0000000 0x10000000) =
        some (.memoryBlock 0xf0000000 0x10000000) ∧
      (ioRange ⟨1, 0xffff⟩).apply (.port 0x10060) = .returned (.ioPort 0x60) ∧
      (ioRange ⟨1, 0xffff⟩).requested (.port 0x10060) = none ∧
      ¬∀ root ∈ systemResources, ∀ call, Safe call → Exact root call := by
  refine ⟨by decide, by decide, by decide, by decide, by decide, by decide, by decide, by decide,
    fun exact_ => ?_⟩
  have thrown := (exact_ (irqRange ⟨1, 255⟩) (by decide) (.irq 257)
    (show (257 : Nat) < 2 ^ 53 by decide)).throws (by decide)
  exact thrown

end Resource

end JsOS.Kernel
