import JsOS.Library.BigEndian
import JsOS.Library.ByteMemory
import JsOS.Library.Traced

/-! # The table of interrupt controllers

`ParseTableAPIC` goes through the entries of an ACPI MADT, by the length byte of each, and
registers the local APICs and the I/O APICs. Of the fields of an entry it checks none against
the end of the table: an entry of length 0 keeps the loop where it is, and an entry that begins
before the end is read as a whole. The theorem says which tables are read within their bounds
by a loop that ends.
-/

namespace JsOS.Kernel

namespace Madt

open ByteMemory Traced

/-- A computation that reads memory; the trace has the address and the length of each read. -/
abbrev Reading := Traced (ℕ × ℕ)

/-- An `AcpiCPU`. -/
structure AcpiCPU where
  cpu_id : UInt8
  local_apic_id : UInt8
  enabled : Bool
  deriving DecidableEq, Repr

/-- An `IoApicX64`, as it is constructed. -/
structure IoApicX64 where
  id_ : UInt8
  address_ : ℕ
  interrupt_base_ : ℕ
  deriving DecidableEq, Repr

/-- What the table is parsed into. -/
structure AcpiX64 where
  local_apic_address_ : ℕ := 0
  cpus_ : List AcpiCPU := []
  cpu_count_ : UInt32 := 0
  io_apics_ : List IoApicX64 := []
  deriving DecidableEq, Repr

/-- `ApicType::LOCAL_APIC`. -/
def LOCAL_APIC : UInt8 := 0

/-- `ApicType::IO_APIC`. -/
def IO_APIC : UInt8 := 1

/-! ## Parsing -/

section Parsing

variable (memory : ℕ → UInt8)

def readByte (p : ℕ) : Reading UInt8 := .act (p, 1) (memory p)

/-- A `uint32_t`, the least significant byte first. -/
def readUint32 (p : ℕ) : Reading ℕ := .act (p, 4) (BigEndian.value (window memory p 4).reverse)

/-- A round of the loop: the place after it, and what is registered. -/
def round (p : ℕ) (acpi : AcpiX64) : Reading (ℕ × AcpiX64) := do
  let type ← readByte memory p
  let length ← readByte memory (p + 1)
  if type = LOCAL_APIC then
    let acpiProcessorId ← readByte memory (p + 2)
    let apicId ← readByte memory (p + 3)
    let flags ← readUint32 memory (p + 4)
    return (p + length.toNat,
      { acpi with
        cpus_ := acpi.cpus_ ++ [⟨acpiProcessorId, apicId, flags % 2 = 1⟩]
        cpu_count_ := acpi.cpu_count_ + 1 })
  else if type = IO_APIC then
    let ioApicId ← readByte memory (p + 2)
    let ioApicAddress ← readUint32 memory (p + 4)
    let globalSystemInterrupt ← readUint32 memory (p + 8)
    return (p + length.toNat,
      { acpi with
        io_apics_ := acpi.io_apics_ ++ [⟨ioApicId, ioApicAddress, globalSystemInterrupt⟩] })
  else return (p + length.toNat, acpi)

/-- How parsing ends: an assertion fails, or the table is parsed; or it has not ended yet. -/
inductive Outcome where
  | failed
  | parsed (acpi : AcpiX64)
  | running
  deriving DecidableEq, Repr

/-- The loop, for a number of rounds. -/
def loop (finish : ℕ) : ℕ → ℕ → AcpiX64 → Reading Outcome
  | 0, p, acpi => return if p < finish then .running else .parsed acpi
  | rounds + 1, p, acpi =>
      if p < finish then do
        let next ← round memory p acpi
        loop finish rounds next.1 next.2
      else return .parsed acpi

/-- The length of a table, which its header has behind the signature. -/
def length (header : ℕ) : ℕ := BigEndian.value (window memory (header + 4) 4).reverse

/-- `ParseTableAPIC`, with a number of rounds of its loop. -/
def parseTableAPIC (rounds : ℕ) (header : ℕ) (acpi : AcpiX64) : Reading Outcome := do
  let localApicAddr ← readUint32 memory (header + 36)
  if localApicAddr = 0 then return .failed
  else
    let length ← readUint32 memory (header + 4)
    loop memory (header + length) rounds (header + 44)
      { acpi with local_apic_address_ := localApicAddr }

end Parsing

/-! ## Entries -/

/-- How much of an entry of a type is read. -/
def readSize (type : UInt8) : ℕ := if type = LOCAL_APIC then 8 else if type = IO_APIC then 12 else 2

/-- **The entries can be walked through**: what is read of each is there, and its length leads on,
maybe beyond the end. -/
inductive Walks : List UInt8 → Prop
  | done : Walks []
  | entry {type length : UInt8} {rest : List UInt8}
      (room : readSize type ≤ (type :: length :: rest).length) (moves : length ≠ 0)
      (others : Walks ((type :: length :: rest).drop length.toNat)) :
      Walks (type :: length :: rest)

/-- A read inside a table. -/
def Inside (start finish : ℕ) (access : ℕ × ℕ) : Prop :=
  start ≤ access.1 ∧ access.1 + access.2 ≤ finish

instance (start finish : ℕ) : DecidablePred (Inside start finish) := fun _ =>
  inferInstanceAs (Decidable (_ ∧ _))

variable {memory : ℕ → UInt8} {start finish p : ℕ} {data : List UInt8}

theorem two_le_readSize (type : UInt8) : 2 ≤ readSize type := by
  unfold readSize
  split
  · decide
  · split
    · decide
    · exact le_rfl

/-- **A round reads inside the table exactly when there is room for the entry.** -/
theorem within_round_iff (ahead : Ahead memory finish p data) (inside : start ≤ p)
    (acpi : AcpiX64) :
    Within (Inside start finish) (round memory p acpi) ↔
      2 ≤ data.length ∧ readSize (memory p) ≤ data.length := by
  have reaches := ahead.reaches
  have here : Inside start finish (p, 1) ∧ Inside start finish (p + 1, 1) ↔ 2 ≤ data.length := by
    unfold Inside
    omega
  rw [round, within_bind, within_bind, readByte, readByte, within_act, within_act, ← and_assoc,
    here, value_act]
  refine and_congr_right fun header => ?_
  unfold readSize
  by_cases isLocal : memory p = LOCAL_APIC
  · rw [if_pos isLocal, if_pos isLocal, within_bind, within_bind, within_bind, readByte, readByte,
      readUint32, within_act, within_act, within_act]
    have fields : Inside start finish (p + 2, 1) ∧ Inside start finish (p + 3, 1) ∧
        Inside start finish (p + 4, 4) ↔ 8 ≤ data.length := by
      unfold Inside
      omega
    rw [← fields]
    exact and_congr_right fun _ => and_congr_right fun _ => and_iff_left (within_pure _)
  · rw [if_neg isLocal, if_neg isLocal]
    by_cases isIo : memory p = IO_APIC
    · rw [if_pos isIo, if_pos isIo, within_bind, within_bind, within_bind, readByte, readUint32,
        readUint32, within_act, within_act, within_act]
      have fields : Inside start finish (p + 2, 1) ∧ Inside start finish (p + 4, 4) ∧
          Inside start finish (p + 8, 4) ↔ 12 ≤ data.length := by
        unfold Inside
        omega
      rw [← fields]
      exact and_congr_right fun _ => and_congr_right fun _ => and_iff_left (within_pure _)
    · rw [if_neg isIo, if_neg isIo]
      exact iff_of_true (within_pure _) header

theorem round_next (memory : ℕ → UInt8) (p : ℕ) (acpi : AcpiX64) :
    (round memory p acpi).value.1 = p + (memory (p + 1)).toNat := by
  rw [round, value_bind, value_bind]
  split
  · rfl
  · split
    · rfl
    · rfl

/-! ## The loop -/

/-- The bytes of an entry, as far as they are needed to go on. -/
theorem entry_ahead (memory : ℕ → UInt8) (header : p + 2 ≤ finish) :
    window memory p (finish - p) =
      memory p :: memory (p + 1) :: window memory (p + 2) (finish - (p + 2)) := by
  have size : finish - p = finish - (p + 2) + 1 + 1 := by omega
  rw [size, window_succ, window_succ]

/-- **Entries that are walked through are parsed, in bounds.** -/
theorem Walks.loop (walks : Walks data) (same : data = window memory p (finish - p))
    (inside : start ≤ p) (acpi : AcpiX64) :
    (∃ rounds, (loop memory finish rounds p acpi).value ≠ .running) ∧
      ∀ rounds, Within (Inside start finish) (loop memory finish rounds p acpi) := by
  induction walks generalizing p acpi with
  | done =>
      have past : ¬p < finish := by
        have size := congrArg List.length same
        rw [length_window, List.length_nil] at size
        omega
      refine ⟨⟨0, ?_⟩, fun rounds => ?_⟩
      · change (if p < finish then Outcome.running else .parsed acpi) ≠ .running
        rw [if_neg past]
        exact Outcome.noConfusion
      · cases rounds with
        | zero => exact within_pure _
        | succ rounds =>
            rw [Madt.loop, if_neg past]
            exact within_pure _
  | @entry type length rest room moves others ih =>
      have size := congrArg List.length same
      have two := two_le_readSize type
      rw [length_window] at size
      have more : p < finish := by omega
      have ahead : Ahead memory finish p _ := ahead_window (Nat.le_of_lt more)
      have bytes := entry_ahead memory (by omega : p + 2 ≤ finish)
      obtain ⟨typeEq, tail⟩ := List.cons.inj (same.trans bytes)
      obtain ⟨lengthEq, -⟩ := List.cons.inj tail
      have further : (type :: length :: rest).drop length.toNat =
          window memory (p + length.toNat) (finish - (p + length.toNat)) := by
        rw [same, drop_window, Nat.sub_add_eq]
      have roundWithin : Within (Inside start finish) (round memory p acpi) := by
        rw [within_round_iff ahead inside, length_window, ← size, ← typeEq]
        exact ⟨Nat.le_trans two room, room⟩
      have next : (round memory p acpi).value.1 = p + length.toNat := by
        rw [round_next, ← lengthEq]
      obtain ⟨⟨rounds, ended⟩, bounds⟩ :=
        ih further (Nat.le_add_right_of_le inside) (round memory p acpi).value.2
      rw [← next] at ended bounds
      refine ⟨⟨rounds + 1, ?_⟩, fun rounds => ?_⟩
      · rw [Madt.loop, if_pos more]
        exact ended
      · cases rounds with
        | zero => exact within_pure _
        | succ rounds =>
            rw [Madt.loop, if_pos more, within_bind]
            exact ⟨roundWithin, bounds rounds⟩

/-- **What is parsed in bounds can be walked through.** -/
theorem walks_of_loop {rounds : ℕ} {acpi : AcpiX64} (inside : start ≤ p)
    (ended : (loop memory finish rounds p acpi).value ≠ .running)
    (within : Within (Inside start finish) (loop memory finish rounds p acpi)) :
    Walks (window memory p (finish - p)) := by
  induction rounds generalizing p acpi with
  | zero =>
      have past : ¬p < finish := fun more => ended (if_pos more)
      rw [Nat.sub_eq_zero_of_le (Nat.le_of_not_lt past)]
      exact .done
  | succ rounds ih =>
      by_cases more : p < finish
      · rw [Madt.loop, if_pos more] at ended within
        rw [within_bind] at within
        obtain ⟨roundWithin, bounds⟩ := within
        have next := round_next memory p acpi
        have later : Walks (window memory (p + (memory (p + 1)).toNat)
            (finish - (p + (memory (p + 1)).toNat))) := by
          rw [← next]
          refine ih ?_ ended bounds
          rw [next]
          exact Nat.le_add_right_of_le inside
        rw [within_round_iff (ahead_window (Nat.le_of_lt more)) inside, length_window] at roundWithin
        have bytes := entry_ahead memory (by omega : p + 2 ≤ finish)
        by_cases stays : memory (p + 1) = 0
        · -- An entry of length 0 leads to itself, with fewer rounds to go.
          rw [stays] at later
          exact later
        · rw [Nat.sub_add_eq, ← drop_window, bytes] at later
          rw [bytes]
          refine .entry ?_ stays later
          rw [← bytes, length_window]
          exact roundWithin.2
      · rw [Nat.sub_eq_zero_of_le (Nat.le_of_not_lt more)]
        exact .done

/-- An entry of length 0 is where the loop stays. -/
theorem loop_zero (zero : memory (p + 1) = 0) (more : p < finish) (rounds : ℕ) (acpi : AcpiX64) :
    (loop memory finish rounds p acpi).value = .running := by
  induction rounds generalizing acpi with
  | zero => exact if_pos more
  | succ rounds ih =>
      have stays : (round memory p acpi).value.1 = p := by
        rw [round_next, zero]
        rfl
      rw [Madt.loop, if_pos more, value_bind, stays]
      exact ih _

/-! ## Well-formed tables -/

/-- A well-formed entry. -/
inductive Entry where
  | localApic (acpiProcessorId apicId : UInt8) (flags : ℕ)
  | ioApic (ioApicId reserved : UInt8) (ioApicAddress globalSystemInterrupt : ℕ)
  | other (type : UInt8) (body : List UInt8)

namespace Entry

def word (number : ℕ) : List UInt8 := (BigEndian.digits 4 number).reverse

/-- The bytes of an entry. -/
def encode : Entry → List UInt8
  | localApic acpiProcessorId apicId flags =>
      [LOCAL_APIC, 8, acpiProcessorId, apicId] ++ word flags
  | ioApic ioApicId reserved ioApicAddress globalSystemInterrupt =>
      [IO_APIC, 12, ioApicId, reserved] ++ (word ioApicAddress ++ word globalSystemInterrupt)
  | other type body => type :: UInt8.ofNat (body.length + 2) :: body

/-- The fields fit, and other entries have other types. -/
def WellFormed : Entry → Prop
  | localApic _ _ flags => flags < 2 ^ 32
  | ioApic _ _ ioApicAddress globalSystemInterrupt =>
      ioApicAddress < 2 ^ 32 ∧ globalSystemInterrupt < 2 ^ 32
  | other type body => type ≠ LOCAL_APIC ∧ type ≠ IO_APIC ∧ body.length ≤ 253

/-- The local APIC that an entry stands for. -/
def cpu? : Entry → Option AcpiCPU
  | localApic acpiProcessorId apicId flags => some ⟨acpiProcessorId, apicId, flags % 2 = 1⟩
  | _ => none

/-- The I/O APIC that an entry stands for. -/
def ioApic? : Entry → Option IoApicX64
  | ioApic ioApicId _ ioApicAddress globalSystemInterrupt =>
      some ⟨ioApicId, ioApicAddress, globalSystemInterrupt⟩
  | _ => none

end Entry

/-- What the entries add. -/
def AcpiX64.register (acpi : AcpiX64) (entries : List Entry) : AcpiX64 where
  local_apic_address_ := acpi.local_apic_address_
  cpus_ := acpi.cpus_ ++ entries.filterMap Entry.cpu?
  cpu_count_ := acpi.cpu_count_ + UInt32.ofNat (entries.filterMap Entry.cpu?).length
  io_apics_ := acpi.io_apics_ ++ entries.filterMap Entry.ioApic?

theorem value_word {number : ℕ} (small : number < 2 ^ 32)
    (holds : Holds memory p (Entry.word number)) :
    (readUint32 memory p).value = number := by
  have length : (Entry.word number).length = 4 := by
    rw [Entry.word, List.length_reverse, BigEndian.length_digits]
  rw [Holds, length] at holds
  change BigEndian.value (window memory p 4).reverse = number
  rw [holds, Entry.word, List.reverse_reverse, BigEndian.value_digits_of_lt small]

theorem value_readByte (memory : ℕ → UInt8) (p : ℕ) : (readByte memory p).value = memory p := rfl

theorem length_word (number : ℕ) : (Entry.word number).length = 4 := by
  rw [Entry.word, List.length_reverse, BigEndian.length_digits]

theorem register_nil (acpi : AcpiX64) : acpi.register [] = acpi := by
  unfold AcpiX64.register
  rw [List.filterMap_nil, List.filterMap_nil, List.append_nil, List.append_nil]
  exact congrArg (fun count => AcpiX64.mk _ _ count _) (UInt32.add_zero acpi.cpu_count_)

/-- **A round registers what its entry stands for.** -/
theorem round_entry {entry : Entry} (wellFormed : entry.WellFormed)
    (holds : Holds memory p entry.encode) (acpi : AcpiX64) :
    (round memory p acpi).value = (p + entry.encode.length, acpi.register [entry]) := by
  cases entry with
  | localApic acpiProcessorId apicId flags =>
      obtain ⟨type, holds⟩ := holds_cons.mp holds
      obtain ⟨length, holds⟩ := holds_cons.mp holds
      obtain ⟨processor, holds⟩ := holds_cons.mp holds
      obtain ⟨id, flagsHeld⟩ := holds_cons.mp holds
      have flagsRead := value_word wellFormed flagsHeld
      rw [round, value_bind, value_readByte, value_bind, value_readByte, type, if_pos rfl,
        value_bind, value_readByte, value_bind, value_readByte, value_bind]
      change (p + (memory (p + 1)).toNat, AcpiX64.mk _ (acpi.cpus_ ++ [⟨memory (p + 2),
        memory (p + 3), (readUint32 memory (p + 4)).value % 2 = 1⟩]) _ _) = _
      rw [length, processor, id, flagsRead]
      refine Prod.ext ?_ ?_
      · rw [Entry.encode, List.length_append, length_word]
        rfl
      · exact congrArg (AcpiX64.mk _ _ _) (List.append_nil acpi.io_apics_).symm
  | ioApic ioApicId reserved ioApicAddress globalSystemInterrupt =>
      obtain ⟨type, holds⟩ := holds_cons.mp holds
      obtain ⟨length, holds⟩ := holds_cons.mp holds
      obtain ⟨id, holds⟩ := holds_cons.mp holds
      obtain ⟨-, holds⟩ := holds_cons.mp holds
      have fields : Holds memory (p + 4)
        (Entry.word ioApicAddress ++ Entry.word globalSystemInterrupt) := holds
      obtain ⟨addressHeld, interruptHeld⟩ := holds_append.mp fields
      rw [length_word] at interruptHeld
      have addressRead := value_word wellFormed.1 addressHeld
      have interruptRead := value_word wellFormed.2 interruptHeld
      rw [round, value_bind, value_readByte, value_bind, value_readByte, type,
        if_neg (by decide), if_pos rfl, value_bind, value_readByte, value_bind, value_bind]
      change (p + (memory (p + 1)).toNat, AcpiX64.mk _ _ _ (acpi.io_apics_ ++ [⟨memory (p + 2),
        (readUint32 memory (p + 4)).value, (readUint32 memory (p + 8)).value⟩])) = _
      rw [length, id, addressRead, interruptRead]
      refine Prod.ext ?_ ?_
      · rw [Entry.encode, List.length_append, List.length_append, length_word, length_word]
        rfl
      · exact congrArg₂ (fun cpus count => AcpiX64.mk _ cpus count _)
          (List.append_nil acpi.cpus_).symm (UInt32.add_zero acpi.cpu_count_).symm
  | other type body =>
      obtain ⟨notLocal, notIo, short⟩ := wellFormed
      obtain ⟨typeEq, holds⟩ := holds_cons.mp holds
      obtain ⟨length, -⟩ := holds_cons.mp holds
      have size : (UInt8.ofNat (body.length + 2)).toNat = body.length + 2 := by
        rw [UInt8.toNat_ofNat']
        omega
      rw [round, value_bind, value_readByte, value_bind, value_readByte, typeEq, if_neg notLocal,
        if_neg notIo, value_pure, length, size]
      refine Prod.ext rfl ?_
      exact (register_nil acpi).symm

theorem encode_pos (entry : Entry) : 0 < entry.encode.length := by
  cases entry with
  | localApic => exact Nat.succ_pos _
  | ioApic => exact Nat.succ_pos _
  | other => exact Nat.succ_pos _

theorem register_cons (acpi : AcpiX64) (entry : Entry) (entries : List Entry) :
    (acpi.register [entry]).register entries = acpi.register (entry :: entries) := by
  have split {α : Type} (f : Entry → Option α) :
      (entry :: entries).filterMap f = [entry].filterMap f ++ entries.filterMap f := by
    rw [← List.filterMap_append]
    rfl
  unfold AcpiX64.register
  dsimp only
  rw [split Entry.cpu?, split Entry.ioApic?, List.append_assoc, List.append_assoc,
    List.length_append, UInt32.ofNat_add, UInt32.add_assoc]

/-- **Well-formed entries are registered, in order.** -/
theorem loop_entries {entries : List Entry} {rounds : ℕ}
    (wellFormed : ∀ entry ∈ entries, entry.WellFormed)
    (ahead : Ahead memory finish p (entries.flatMap Entry.encode))
    (enough : entries.length ≤ rounds) (acpi : AcpiX64) :
    (loop memory finish rounds p acpi).value = .parsed (acpi.register entries) := by
  induction entries generalizing p rounds acpi with
  | nil =>
      have reaches : p + 0 = finish := ahead.reaches
      have past : ¬p < finish := by omega
      rw [register_nil]
      cases rounds with
      | zero => exact if_neg past
      | succ rounds =>
          rw [loop, if_neg past]
          rfl
  | cons entry entries ih =>
      obtain ⟨rounds, rfl⟩ : ∃ fewer, rounds = fewer + 1 :=
        ⟨rounds - 1, by rw [List.length_cons] at enough; omega⟩
      have room := ahead.front_le
      have positive := encode_pos entry
      have read := round_entry (wellFormed entry List.mem_cons_self) ahead.front acpi
      rw [loop, if_pos (by omega), value_bind, read, ← register_cons acpi entry entries]
      exact ih (fun other among => wellFormed other (List.mem_cons_of_mem entry among)) ahead.back
        (Nat.le_of_succ_le_succ enough) (acpi.register [entry])

/-! ## The table -/

/-- **A table is parsed in bounds by a loop that ends, exactly when its entries can be walked
through** behind a header that holds the address of the local APIC; without that address there
is nothing to walk through. And whatever entries a well-formed table has, its local APICs and
I/O APICs are registered, in order. -/
theorem parseTableAPIC_inside_iff (memory : ℕ → UInt8) (header : ℕ) (acpi : AcpiX64) :
    ((∃ rounds, (parseTableAPIC memory rounds header acpi).value ≠ .running) ∧
        (∀ rounds, Within (Inside header (header + length memory header))
          (parseTableAPIC memory rounds header acpi)) ↔
      40 ≤ length memory header ∧
        ((readUint32 memory (header + 36)).value = 0 ∨
          Walks (window memory (header + 44) (length memory header - 44)))) ∧
    ∀ entries : List Entry, (∀ entry ∈ entries, entry.WellFormed) →
      (readUint32 memory (header + 36)).value ≠ 0 →
      Ahead memory (header + length memory header) (header + 44)
        (entries.flatMap Entry.encode) →
      ∀ rounds, entries.length ≤ rounds →
        (parseTableAPIC memory rounds header acpi).value =
          .parsed ({ acpi with
            local_apic_address_ := (readUint32 memory (header + 36)).value }.register entries) := by
  have lengthRead : (readUint32 memory (header + 4)).value = length memory header := rfl
  have size : header + length memory header - (header + 44) = length memory header - 44 := by omega
  have first : Within (Inside header (header + length memory header))
      (readUint32 memory (header + 36)) ↔ 40 ≤ length memory header := by
    rw [readUint32, within_act, Inside]
    omega
  refine ⟨?_, ?_⟩
  · by_cases absent : (readUint32 memory (header + 36)).value = 0
    · have ended : (parseTableAPIC memory 0 header acpi).value = .failed := by
        rw [parseTableAPIC, value_bind, if_pos absent]
        rfl
      have bounds (rounds : ℕ) : Within (Inside header (header + length memory header))
          (parseTableAPIC memory rounds header acpi) ↔ 40 ≤ length memory header := by
        rw [parseTableAPIC, within_bind, first, if_pos absent]
        exact and_iff_left (within_pure _)
      constructor
      · rintro ⟨-, within⟩
        exact ⟨(bounds 0).mp (within 0), .inl absent⟩
      · rintro ⟨long, -⟩
        refine ⟨⟨0, ?_⟩, fun rounds => (bounds rounds).mpr long⟩
        rw [ended]
        exact Outcome.noConfusion
    · have value (rounds : ℕ) : (parseTableAPIC memory rounds header acpi).value =
          (loop memory (header + length memory header) rounds (header + 44) { acpi with
            local_apic_address_ := (readUint32 memory (header + 36)).value }).value := by
        rw [parseTableAPIC, value_bind, if_neg absent, value_bind, lengthRead]
      have bounds (rounds : ℕ) : Within (Inside header (header + length memory header))
          (parseTableAPIC memory rounds header acpi) ↔ 40 ≤ length memory header ∧
            Within (Inside header (header + length memory header))
              (loop memory (header + length memory header) rounds (header + 44) { acpi with
                local_apic_address_ := (readUint32 memory (header + 36)).value }) := by
        rw [parseTableAPIC, within_bind, first, if_neg absent, within_bind, lengthRead]
        refine and_congr_right fun long => and_iff_right ?_
        rw [readUint32, within_act, Inside]
        omega
      rw [or_iff_right absent, ← size]
      constructor
      · rintro ⟨⟨rounds, ended⟩, within⟩
        rw [value] at ended
        have both := (bounds rounds).mp (within rounds)
        exact ⟨both.1, walks_of_loop (Nat.le_add_right header 44) ended both.2⟩
      · rintro ⟨long, walks⟩
        obtain ⟨⟨rounds, ended⟩, within⟩ := walks.loop rfl (Nat.le_add_right header 44) _
        refine ⟨⟨rounds, ?_⟩, fun rounds => (bounds rounds).mpr ⟨long, within rounds⟩⟩
        rw [value]
        exact ended
  · intro entries wellFormed present ahead rounds enough
    rw [parseTableAPIC, value_bind, if_neg present, value_bind, lengthRead]
    exact loop_entries wellFormed ahead enough _

/-! A table at `0x1000`: its header, a local APIC, an interrupt override and an I/O APIC. -/

def sampleEntries : List Entry :=
  [.localApic 1 0 1, .other 2 [0, 0, 2, 0, 0, 0, 0, 0], .ioApic 2 0 0xfec00000 0]

def tableMemory (entries : List UInt8) : ℕ → UInt8 := fun place =>
  ([0x41, 0x50, 0x49, 0x43] ++ Entry.word (44 + entries.length) ++ List.replicate 28 0 ++
    Entry.word 0xfee00000 ++ Entry.word 1 ++ entries).getD (place - 0x1000) 0

theorem parseTableAPIC_sample :
    (parseTableAPIC (tableMemory (sampleEntries.flatMap Entry.encode)) 3 0x1000 {}).value =
      .parsed (AcpiX64.register { local_apic_address_ := 0xfee00000 } sampleEntries) := by
  have present : (readUint32 (tableMemory (sampleEntries.flatMap Entry.encode))
      (0x1000 + 36)).value = 0xfee00000 := by decide +kernel
  have wellFormed : ∀ entry ∈ sampleEntries, entry.WellFormed := by
    refine List.forall_mem_cons.mpr ⟨?_, List.forall_mem_cons.mpr ⟨?_, ?_⟩⟩
    · change 1 < 2 ^ 32
      decide
    · exact ⟨by decide, by decide, by decide⟩
    · refine List.forall_mem_singleton.mpr ⟨?_, ?_⟩
      · decide
      · decide
  have ahead : Ahead (tableMemory (sampleEntries.flatMap Entry.encode))
      (0x1000 + length (tableMemory (sampleEntries.flatMap Entry.encode)) 0x1000) (0x1000 + 44)
      (sampleEntries.flatMap Entry.encode) := by
    refine ⟨by decide +kernel, ?_⟩
    unfold Holds
    decide +kernel
  have parsed := (parseTableAPIC_inside_iff (tableMemory (sampleEntries.flatMap Entry.encode))
    0x1000 {}).2 sampleEntries wellFormed (by rw [present]; decide) ahead 3 (by decide)
  rw [present] at parsed
  exact parsed

/-- A table whose only entry has the length 0: the loop never ends. -/
theorem zeroLength_not_ends :
    ¬∃ rounds, (parseTableAPIC (tableMemory [5, 0]) rounds 0x1000 {}).value ≠ .running := by
  rintro ⟨rounds, ended⟩
  have present : (readUint32 (tableMemory [5, 0]) (0x1000 + 36)).value ≠ 0 := by decide +kernel
  have zero : tableMemory [5, 0] (0x1000 + 44 + 1) = 0 := by decide +kernel
  rw [parseTableAPIC, value_bind, if_neg present, value_bind] at ended
  exact ended (loop_zero zero (by decide +kernel) rounds _)

end Madt

end JsOS.Kernel
