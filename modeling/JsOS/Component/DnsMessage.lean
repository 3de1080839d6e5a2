import JsOS.Component.DnsQuery
import JsOS.Component.DnsResponse

/-! # Messages

What a well-formed message says, and that `parseResponse` says the same. A name is a sequence of
labels up to a zero byte or a pointer, and a pointer leads to a name further in front, so that
each pointer is one more call of `readHostname`. The records follow each other by the lengths of
their data, which the reader steps over in different ways.
-/

namespace JsOS.Component.Dns

variable {u8 : List UInt8} {depth offset next : ℕ} {labels question : List (List Char)}

/-! ## What a message says -/

/-- The numbers of some bytes in the datagram. -/
def bytesAt (u8 : List UInt8) (offset count : ℕ) : List ℕ :=
  ((u8.drop offset).take count).map UInt8.toNat

/-- **A name of RFC 1035 at a place**, with its labels, the place behind it, and a bound for the
pointers that are followed one out of the other. A pointer leads to a name at an earlier place. -/
inductive Name (u8 : List UInt8) : ℕ → ℕ → List (List Char) → ℕ → Prop
  | root {depth offset : ℕ} (zero : u8[offset]? = some 0) : Name u8 depth offset [] (offset + 1)
  | label {depth offset next : ℕ} {len : UInt8} {labels : List (List Char)}
      (first : u8[offset]? = some len) (filled : 1 ≤ len.toNat) (short : len.toNat ≤ 63)
      (room : offset + 1 + len.toNat ≤ u8.length)
      (later : Name u8 depth (offset + 1 + len.toNat) labels next) :
      Name u8 depth offset ((bytesAt u8 (offset + 1) len.toNat).map Char.ofNat :: labels) next
  | pointer {depth offset target last : ℕ} {high low : UInt8} {labels : List (List Char)}
      (first : u8[offset]? = some high) (second : u8[offset + 1]? = some low)
      (marked : high.toNat * 256 + low.toNat = 0xc000 + target) (earlier : target < offset)
      (leads : Name u8 depth target labels last) : Name u8 (depth + 1) offset labels (offset + 2)

/-- The data of a resource record; of another type than the two that are looked at, the type. -/
inductive RecordData where
  | a (address : List ℕ)
  | cname (name : List (List Char))
  | other (type : ℕ)

/-- A resource record. -/
structure ResourceRecord where
  owner : List (List Char)
  ttl : ℕ
  data : RecordData

/-- The data of a record at a place, with the type and the length that the record has. -/
inductive IsData (u8 : List UInt8) (depth offset : ℕ) : ℕ → ℕ → RecordData → Prop
  | a : IsData u8 depth offset 0x01 4 (.a (bytesAt u8 offset 4))
  | cname {name : List (List Char)} {length : ℕ} (target : Name u8 depth offset name (offset + length)) :
      IsData u8 depth offset 0x05 length (.cname name)
  | other {type length : ℕ} (notAddress : type ≠ 0x01) (notAlias : type ≠ 0x05) :
      IsData u8 depth offset type length (.other type)

/-- **The resource records from a place on**, of any class. -/
inductive Records (u8 : List UInt8) (depth : ℕ) : ℕ → List ResourceRecord → Prop
  | nil (offset : ℕ) : Records u8 depth offset []
  | cons {offset place : ℕ} {record : ResourceRecord} {records : List ResourceRecord}
      (owner : Name u8 depth offset record.owner place)
      (room : place + 10 + uint16At u8 (place + 8) ≤ u8.length)
      (ttl : uint32At u8 (place + 4) = record.ttl)
      (data : IsData u8 depth (place + 10) (uint16At u8 place) (uint16At u8 (place + 8)) record.data)
      (later : Records u8 depth (place + 10 + uint16At u8 (place + 8)) records) :
      Records u8 depth offset (record :: records)

/-- **A response to the client**, with one question and some answers. Its flags, and what comes
after the answers, are anything. -/
structure IsResponse (u8 : List UInt8) (depth : ℕ) (question : List (List Char))
    (records : List ResourceRecord) : Prop where
  id : uint16At u8 0 = randomId
  one : uint16At u8 4 = 1
  counted : uint16At u8 6 = records.length
  body : ∃ place, Name u8 depth 12 question place ∧ place + 4 ≤ u8.length ∧
    Records u8 depth (place + 4) records

/-- The result for a record: none but for an address or an alias. -/
def ResourceRecord.result (record : ResourceRecord) : Option DnsRecord :=
  match record.data with
  | .a address => some (.a (join record.owner) address record.ttl)
  | .cname name => some (.cname (join record.owner) (join name))
  | .other _ => none

/-! ## Names -/

theorem readBytes_eq {count : ℕ} (room : offset + count ≤ u8.length) :
    readBytes u8 count offset = some (bytesAt u8 offset count, offset + count) := by
  induction count generalizing offset with
  | zero => rfl
  | succ count ih =>
      have inside : offset < u8.length := by omega
      rw [readBytes, readUint8_eq, if_pos inside, Option.bind_eq_bind, Option.bind_some]
      dsimp only
      rw [ih (by omega), Option.bind_eq_bind, Option.bind_some, Nat.add_right_comm offset 1 count]
      change some _ = _
      rw [bytesAt, bytesAt, List.drop_eq_getElem_cons inside, List.take_succ_cons, List.map_cons,
        List.getD_eq_getElem?_getD, List.getElem?_eq_getElem inside]
      rfl

theorem isPointer_eq {value : ℕ} (byte : value < 256) :
    isPointer value = decide (0xc0 ≤ value) := by
  have all : ∀ value < 256, isPointer value = decide (0xc0 ≤ value) := by decide +kernel
  exact all value byte

theorem Name.inside (name : Name u8 depth offset labels next) : offset < u8.length := by
  cases name with
  | root zero => exact lt_length_of_byte zero
  | label first => exact lt_length_of_byte first
  | pointer first => exact lt_length_of_byte first

/-- The loop of `readHostname` reads the labels of a name behind those it has. -/
theorem Name.readLabels (name : Name u8 depth offset labels next) {stack rounds : ℕ}
    (fits : depth ≤ stack) (enough : u8.length - offset ≤ rounds) (found : List (List Char)) :
    readLabels u8 (readHostname u8 stack) rounds offset found = some (found ++ labels, next) := by
  have inside := name.inside
  obtain ⟨rounds, rfl⟩ : ∃ more, rounds = more + 1 := Nat.exists_eq_succ_of_ne_zero (by omega)
  induction name generalizing stack rounds found with
  | root zero => rw [readLabels_stop zero, List.append_nil]
  | @label depth offset next len labels first filled short room later ih =>
      have notZero : len ≠ 0 := by
        rintro rfl
        exact absurd filled (by decide)
      have plain : isPointer len.toNat = false := by
        rw [isPointer_eq len.toNat_lt]
        exact decide_eq_false (by omega)
      have inner := later.inside
      obtain ⟨rounds, rfl⟩ : ∃ more, rounds = more + 1 :=
        Nat.exists_eq_succ_of_ne_zero (by omega)
      rw [readLabels_label first notZero plain, readBytes_eq room, Option.bind_some,
        ih fits _ inner rounds (by omega), List.append_assoc]
      rfl
  | @pointer depth offset target last high low labels first second marked earlier leads ih =>
      have highByte := high.toNat_lt
      have lowByte := low.toNat_lt
      obtain ⟨stack, rfl⟩ : ∃ more, stack = more + 1 := Nat.exists_eq_succ_of_ne_zero (by omega)
      have isMarked : isPointer high.toNat = true := by
        rw [isPointer_eq highByte]
        exact decide_eq_true (by omega)
      have place : (high.toNat - 0xc0) * 256 + low.toNat = target := by
        rw [Nat.sub_mul]
        omega
      have inner := leads.inside
      obtain ⟨left, rest⟩ : ∃ left, u8.length - target = left + 1 :=
        Nat.exists_eq_succ_of_ne_zero (by omega)
      have followed : readHostname u8 (stack + 1) target = some (labels, last) := by
        have read := ih (Nat.le_of_succ_le_succ fits) [] inner left (by omega)
        rw [readHostname, rest, read]
        rfl
      rw [readLabels_pointer first isMarked, second, Option.bind_some, place, followed]
      rfl

/-- **A name is read when there is a call for each pointer.** -/
theorem Name.read (name : Name u8 depth offset labels next) {stack : ℕ} (fits : depth < stack) :
    readHostname u8 stack offset = some (labels, next) := by
  obtain ⟨stack, rfl⟩ : ∃ more, stack = more + 1 := Nat.exists_eq_succ_of_ne_zero (by omega)
  rw [readHostname, name.readLabels (Nat.le_of_lt_succ fits) (Nat.le_refl _) [], List.nil_append]

/-- Labels that are read are read by any loop that follows the same pointers. -/
theorem readLabels_mono {follow others : ℕ → Option (List (List Char) × ℕ)}
    (agree : ∀ place rest, follow place = some rest → others place = some rest) {rounds : ℕ}
    {found : List (List Char)} {result : List (List Char) × ℕ}
    (read : Dns.readLabels u8 follow rounds offset found = some result) :
    Dns.readLabels u8 others rounds offset found = some result := by
  induction rounds generalizing offset found with
  | zero => exact read
  | succ rounds ih =>
      cases first : u8[offset]? with
      | none =>
          rw [readLabels_cut first] at read
          cases read
      | some len =>
          by_cases zero : len = 0
          · subst zero
            rw [readLabels_stop first] at read ⊢
            exact read
          · cases marked : isPointer len.toNat with
            | true =>
                rw [readLabels_pointer first marked] at read ⊢
                obtain ⟨low, second, read⟩ := Option.bind_eq_some_iff.mp read
                obtain ⟨rest, leads, same⟩ := Option.map_eq_some_iff.mp read
                rw [second, Option.bind_some, agree _ rest leads, Option.map_some, same]
            | false =>
                rw [readLabels_label first zero marked] at read ⊢
                obtain ⟨bytes, taken, read⟩ := Option.bind_eq_some_iff.mp read
                rw [taken, Option.bind_some]
                exact ih read

/-- **More calls do not change a name.** -/
theorem readHostname_mono {calls more : ℕ} (le : calls ≤ more) {result : List (List Char) × ℕ}
    (read : readHostname u8 calls offset = some result) :
    readHostname u8 more offset = some result := by
  induction calls generalizing more offset result with
  | zero => cases read
  | succ calls ih =>
      obtain ⟨more, rfl⟩ : ∃ others, more = others + 1 :=
        Nat.exists_eq_succ_of_ne_zero (by omega)
      rw [readHostname] at read ⊢
      exact readLabels_mono (fun place rest => ih (Nat.le_of_succ_le_succ le)) read

/-- A stack with a call for each pointer that can be followed: those that the names of a message
have, or those that no message exceeds. -/
def Fits (depth stack : ℕ) : Prop := depth < stack ∨ 2 ^ 14 < stack

theorem Name.read_of_fits (name : Name u8 depth offset labels next) {stack : ℕ}
    (fits : Fits depth stack) : readHostname u8 stack offset = some (labels, next) := by
  rcases fits with fits | fits
  · exact name.read fits
  · have read := name.read (Nat.lt_succ_self depth)
    have host := (readHostname_iff.mp ⟨labels, read⟩).enough
    obtain ⟨others, again⟩ := readHostname_iff.mpr host
    have last := readHostname_mono fits again
    -- both depths agree where both are reached
    have first := readHostname_mono (Nat.le_max_left (depth + 1) stack) read
    have second := readHostname_mono (Nat.le_max_right (depth + 1) stack) last
    rw [last, ← second, first]

/-! ## Records -/

/-- **The answers are read in order**, without those that the client does not look at. -/
theorem Records.read {records : List ResourceRecord} (there : Records u8 depth offset records)
    {stack : ℕ} (fits : Fits depth stack) (results : List DnsRecord) :
    readAnswers u8 stack records.length offset results =
      some (some (results ++ records.filterMap ResourceRecord.result)) := by
  induction there generalizing results with
  | nil offset =>
      rw [List.filterMap_nil, List.append_nil]
      rfl
  | @cons offset place record records owner room ttl data later ih =>
      have host := owner.read_of_fits fits
      rw [List.length_cons, readAnswers_fields host (by omega), List.filterMap_cons]
      obtain ⟨labels, time, contents⟩ := record
      dsimp only at ttl data host ⊢
      generalize uint16At u8 place = type at data ⊢
      generalize uint16At u8 (place + 8) = length at room data later ih ⊢
      cases data with
      | a =>
          have isAddress : 0x01 = queries "A" := rfl
          rw [if_pos isAddress, if_neg (not_not.mpr rfl), readBytes_eq room, Option.bind_some, ttl,
            ih, List.append_assoc]
          rfl
      | @cname name length target =>
          have notAddress : 0x05 ≠ queries "A" := by decide
          have isAlias : 0x05 = queries "CNAME" := rfl
          rw [if_neg notAddress, if_pos isAlias, target.read_of_fits fits, Option.bind_some, ih,
            List.append_assoc]
          rfl
      | other notAddress notAlias =>
          have skipped : type ≠ queries "A" ∧ type ≠ queries "CNAME" := ⟨notAddress, notAlias⟩
          rw [if_neg skipped.1, if_neg skipped.2, readBytes_eq room, Option.bind_some, ih]
          rfl

/-- **A response is parsed to what it says.** -/
theorem IsResponse.parse {records : List ResourceRecord}
    (message : IsResponse u8 depth question records) {stack : ℕ} (fits : Fits depth stack) :
    parseResponse u8 stack =
      some (some ⟨join question, records.filterMap ResourceRecord.result⟩) := by
  obtain ⟨place, name, fields, answers⟩ := message.body
  have inside := name.inside
  rw [parseResponse_eq, if_pos (by omega), if_neg (not_not.mpr message.id), if_pos (by omega),
    if_neg (not_not.mpr message.one), readQuestion_eq, name.read_of_fits fits, Option.bind_some,
    if_pos fields, Option.bind_some, message.counted, answers.read fits]
  rfl

/-! ## Addresses -/

/-- An address of four bytes. -/
def DnsRecord.FourBytes : DnsRecord → Prop
  | .a _ address _ => address.length = 4 ∧ ∀ byte ∈ address, byte < 256
  | .cname _ _ => True

theorem readBytes_bytes {count : ℕ} {bytes : List ℕ}
    (read : readBytes u8 count offset = some (bytes, next)) :
    bytes.length = count ∧ ∀ byte ∈ bytes, byte < 256 := by
  induction count generalizing offset next bytes with
  | zero =>
      obtain ⟨rfl, rfl⟩ := Prod.mk.inj (Option.some.inj read)
      exact ⟨rfl, fun _ among => absurd among List.not_mem_nil⟩
  | succ count ih =>
      rw [readBytes, Option.bind_eq_bind] at read
      obtain ⟨⟨byte, place⟩, first, read⟩ := Option.bind_eq_some_iff.mp read
      obtain ⟨⟨others, last⟩, later, same⟩ := Option.bind_eq_some_iff.mp read
      obtain ⟨rfl, rfl⟩ := Prod.mk.inj (Option.some.inj same)
      obtain ⟨found, _, taken⟩ := Option.map_eq_some_iff.mp first
      obtain ⟨rfl, rfl⟩ := Prod.mk.inj taken
      obtain ⟨length, small⟩ := ih later
      exact ⟨congrArg (· + 1) length, List.forall_mem_cons.mpr ⟨found.toNat_lt, small⟩⟩

theorem fourBytes_of_readAnswers {calls answers : ℕ} {results found : List DnsRecord}
    (read : readAnswers u8 calls answers offset results = some (some found))
    (before : ∀ record ∈ results, record.FourBytes) : ∀ record ∈ found, record.FourBytes := by
  induction answers generalizing offset results with
  | zero =>
      obtain rfl := Option.some.inj (Option.some.inj read)
      exact before
  | succ answers ih =>
      cases named : readHostname u8 calls offset with
      | none =>
          rw [readAnswers, named] at read
          cases read
      | some name =>
          by_cases fields : name.2 + 10 ≤ u8.length
          · rw [@readAnswers_fields u8 offset name.2 calls answers results name.1 named fields] at read
            by_cases address : uint16At u8 name.2 = queries "A"
            · rw [if_pos address] at read
              by_cases four : uint16At u8 (name.2 + 8) ≠ 4
              · rw [if_pos four] at read
                cases read
              · rw [if_neg four] at read
                obtain ⟨⟨bytes, place⟩, taken, read⟩ := Option.bind_eq_some_iff.mp read
                exact ih read (List.forall_mem_append.mpr
                  ⟨before, List.forall_mem_singleton.mpr (readBytes_bytes taken)⟩)
            · rw [if_neg address] at read
              by_cases isAlias : uint16At u8 name.2 = queries "CNAME"
              · rw [if_pos isAlias] at read
                obtain ⟨target, _, read⟩ := Option.bind_eq_some_iff.mp read
                exact ih read (List.forall_mem_append.mpr
                  ⟨before, List.forall_mem_singleton.mpr trivial⟩)
              · rw [if_neg isAlias] at read
                obtain ⟨skipped, _, read⟩ := Option.bind_eq_some_iff.mp read
                exact ih read before
          · rw [readAnswers_cut named (Nat.lt_of_not_le fields)] at read
            cases read

/-- **The addresses of a response have four bytes each.** -/
theorem fourBytes_of_parseResponse {stack : ℕ} {response : Response}
    (parsed : parseResponse u8 stack = some (some response)) :
    ∀ record ∈ response.results, record.FourBytes := by
  rw [parseResponse_eq] at parsed
  by_cases two : 2 ≤ u8.length
  · rw [if_pos two] at parsed
    by_cases own : uint16At u8 0 ≠ randomId
    · rw [if_pos own] at parsed
      cases parsed
    · rw [if_neg own] at parsed
      by_cases header : 12 ≤ u8.length
      · rw [if_pos header] at parsed
        by_cases one : uint16At u8 4 ≠ 1
        · rw [if_pos one] at parsed
          cases parsed
        · rw [if_neg one] at parsed
          obtain ⟨question, _, parsed⟩ := Option.bind_eq_some_iff.mp parsed
          obtain ⟨answers, read, same⟩ := Option.bind_eq_some_iff.mp parsed
          obtain ⟨results, rfl, rfl⟩ := Option.map_eq_some_iff.mp (Option.some.inj same)
          exact fourBytes_of_readAnswers read fun _ among => absurd among List.not_mem_nil
      · rw [if_neg header] at parsed
        cases parsed
  · rw [if_neg two] at parsed
    cases parsed

/-! ## Queries -/

/-- The characters of a domain are single bytes. -/
theorem ofNat_toNat_of_isDomainChar {char : Char} (allowed : isDomainChar char = true) :
    Char.ofNat (UInt8.ofNat char.toNat).toNat = char := by
  have small : char.toNat < 256 := by
    simp only [isDomainChar, Bool.or_eq_true, Bool.and_eq_true, decide_eq_true_eq] at allowed
    rcases allowed with ((⟨-, letter⟩ | ⟨-, digit⟩) | rfl) | rfl
    · exact Nat.lt_of_le_of_lt (show char.toNat ≤ 'z'.toNat from letter) (by decide)
    · exact Nat.lt_of_le_of_lt (show char.toNat ≤ '9'.toNat from digit) (by decide)
    · decide
    · decide
  rw [UInt8.toNat_ofNat', Nat.mod_eq_of_lt small, Char.ofNat_toNat]

/-- A label behind its length, read as text. -/
theorem bytesAt_labelBytes {label : List Char} (front rest : List UInt8)
    (chars : ∀ char ∈ label, isDomainChar char = true) :
    (bytesAt (front ++ labelBytes label ++ rest) (front.length + 1) label.length).map Char.ofNat =
      label := by
  generalize written : (label.map fun char => UInt8.ofNat char.toNat) = bytes
  have count : label.length = bytes.length := by rw [← written, List.length_map]
  have split : front ++ labelBytes label ++ rest =
      (front ++ [UInt8.ofNat label.length]) ++ (bytes ++ rest) := by
    rw [labelBytes, written]
    simp only [List.append_assoc, List.cons_append, List.nil_append]
  have place : front.length + 1 = (front ++ [UInt8.ofNat label.length]).length := by
    rw [List.length_append, List.length_singleton]
  rw [bytesAt, split, place, List.drop_left, count, List.take_left, ← written, List.map_map,
    List.map_map]
  refine (List.map_congr_left fun char among => ?_).trans (List.map_id label)
  exact ofNat_toNat_of_isDomainChar (chars char among)

/-- Labels behind their lengths, with a zero byte at the end, are a name. -/
theorem name_of_labels (depth : ℕ) {labels : List (List Char)} (front rest : List UInt8)
    (valid : ∀ label ∈ labels, IsLabel label)
    (chars : ∀ label ∈ labels, ∀ char ∈ label, isDomainChar char = true) :
    Name (front ++ (labels.flatMap labelBytes ++ [0]) ++ rest) depth front.length labels
      (front.length + (labels.flatMap labelBytes ++ [0]).length) := by
  induction labels generalizing front with
  | nil =>
      refine .root ?_
      rw [List.flatMap_nil, List.nil_append, List.append_assoc,
        List.getElem?_append_right (Nat.le_refl _), Nat.sub_self]
      rfl
  | cons label labels ih =>
      obtain ⟨isLabel, valid⟩ := List.forall_mem_cons.mp valid
      obtain ⟨text, chars⟩ := List.forall_mem_cons.mp chars
      have later := ih (front ++ labelBytes label) valid chars
      have len : (UInt8.ofNat label.length).toNat = label.length :=
        toNat_length (Nat.le_trans isLabel.2 (by decide))
      have width : (labelBytes label).length = 1 + label.length := by
        rw [labelBytes, List.length_cons, List.length_map, Nat.add_comm]
      have bytes : front ++ ((label :: labels).flatMap labelBytes ++ [0]) ++ rest =
          (front ++ labelBytes label) ++ (labels.flatMap labelBytes ++ [0]) ++ rest := by
        simp only [List.flatMap_cons, List.append_assoc]
      have past : front.length + ((label :: labels).flatMap labelBytes ++ [0]).length =
          (front ++ labelBytes label).length + (labels.flatMap labelBytes ++ [0]).length := by
        simp only [List.flatMap_cons, List.length_append, Nat.add_assoc]
      have first : ((front ++ labelBytes label) ++ (labels.flatMap labelBytes ++ [0]) ++
          rest)[front.length]? = some (UInt8.ofNat label.length) := by
        rw [List.append_assoc, List.append_assoc, List.getElem?_append_right (Nat.le_refl _),
          Nat.sub_self]
        rfl
      have named := bytesAt_labelBytes front (labels.flatMap labelBytes ++ [0] ++ rest) text
      rw [bytes, past]
      rw [List.length_append, width, ← Nat.add_assoc] at later
      rw [← List.append_assoc] at named
      have name := Name.label first (by rw [len]; exact isLabel.1) (by rw [len]; exact isLabel.2)
        (by
          rw [len]
          simp only [List.length_append, width]
          omega)
        (by
          rw [len]
          exact later)
      rw [len, named] at name
      rw [List.length_append, width, ← Nat.add_assoc]
      exact name

theorem queries_lt (query : String) : queries query < 2 ^ 16 := by
  unfold queries
  split <;> decide

theorem uint16At_append {number : ℕ} (small : number < 2 ^ 16) (front rest : List UInt8) :
    uint16At (front ++ (uint16 number ++ rest)) front.length = number := by
  rw [uint16At, List.getD_eq_getElem?_getD, List.getD_eq_getElem?_getD,
    List.getElem?_append_right (Nat.le_refl _), List.getElem?_append_right (Nat.le_add_right _ _),
    Nat.sub_self, Nat.add_sub_cancel_left]
  change (UInt8.ofNat (number / 256)).toNat * 256 + (UInt8.ofNat number).toNat = number
  rw [UInt8.toNat_ofNat', UInt8.toNat_ofNat']
  omega

/-- **A query is written for the texts of valid labels that the other checks let through, and its
name is read back as these labels, up to its type.** -/
theorem readHostname_getQuery {domain : List Char} {query : String}
    (valid : ∀ label ∈ domain.splitOn '.', IsLabel label) {stack : ℕ} (call : 0 < stack) :
    ((getQuery domain query).isSome ↔
        domain.length ≤ 255 ∧ ∀ char ∈ domain, isDomainChar char = true) ∧
      ∀ u8, getQuery domain query = some u8 →
        readHostname u8 stack 12 = some (domain.splitOn '.', u8.length - 4) ∧
          uint16At u8 (u8.length - 4) = queries query := by
  obtain ⟨first, later, split⟩ := splitOn_eq_cons domain
  have isFirst : IsLabel first := valid first (by rw [split]; exact List.mem_cons_self)
  constructor
  · rw [Option.isSome_iff_exists]
    simp only [getQuery_eq_some_iff, exists_and_left, exists_eq', and_true]
    rw [isDomain_iff split, ← and_assoc, and_iff_left isFirst]
  · intro u8 written
    obtain ⟨accepted, rfl⟩ := getQuery_eq_some_iff.mp written
    obtain ⟨-, chars, -⟩ := (isDomain_iff split).mp accepted
    have text (label : List Char) (listed : label ∈ domain.splitOn '.') (char : Char)
        (among : char ∈ label) : isDomainChar char = true :=
      chars char ((isInfix_of_mem_splitOn listed).subset among)
    have header : (uint16 randomId ++ uint16 0x0100 ++ uint16 1 ++ uint16 0 ++ uint16 0 ++
        uint16 0).length = 12 := rfl
    generalize uint16 randomId ++ uint16 0x0100 ++ uint16 1 ++ uint16 0 ++ uint16 0 ++ uint16 0 =
      front at header ⊢
    have name := name_of_labels 0 front (uint16 (queries query) ++ uint16 1) valid text
    generalize (domain.splitOn '.').flatMap labelBytes ++ [0] = bytes at name ⊢
    have type : (front ++ bytes ++ (uint16 (queries query) ++ uint16 1)).length - 4 =
        (front ++ bytes).length := by
      rw [List.length_append]
      rfl
    rw [header, ← header, ← List.length_append] at name
    rw [type]
    exact ⟨header ▸ name.read call, uint16At_append (queries_lt query) _ _⟩

/-- **Messages are parsed exactly.** A response is parsed to its question's name and, in order, the
addresses and the aliases among its records. A query for a domain of valid labels has a name that
is read back as these labels and ends where its type is. -/
theorem parsing_exact {records : List ResourceRecord}
    (message : IsResponse u8 depth question records) {stack : ℕ} (fits : Fits depth stack)
    {domain : List Char} (valid : ∀ label ∈ domain.splitOn '.', IsLabel label) (query : String) :
    parseResponse u8 stack =
        some (some ⟨join question, records.filterMap ResourceRecord.result⟩) ∧
      ((getQuery domain query).isSome ↔
        domain.length ≤ 255 ∧ ∀ char ∈ domain, isDomainChar char = true) ∧
      ∀ u8, getQuery domain query = some u8 →
        readHostname u8 stack 12 = some (domain.splitOn '.', u8.length - 4) ∧
          uint16At u8 (u8.length - 4) = queries query := by
  have call : 0 < stack := by
    rcases fits with fits | fits
    · exact Nat.zero_lt_of_lt fits
    · exact Nat.zero_lt_of_lt fits
  exact ⟨message.parse fits, readHostname_getQuery valid call⟩

/-- The answer for a name that is a pointer to the question's. -/
theorem sampleResponse_isResponse :
    IsResponse sampleResponse 1 [['a']] [⟨[['a']], 60, .a [10, 0, 0, 1]⟩] := by
  have split : sampleResponse = sampleResponse.take 12 ++ ([['a']].flatMap labelBytes ++ [0]) ++
      sampleResponse.drop 15 := by decide +kernel
  have chars : ∀ label ∈ [['a']], ∀ char ∈ label, isDomainChar char = true := by
    intro label member char inside
    rw [List.mem_singleton.mp member] at inside
    rw [List.mem_singleton.mp inside]
    rfl
  have name (depth : ℕ) : Name sampleResponse depth 12 [['a']] 15 := by
    rw [split]
    exact name_of_labels depth (sampleResponse.take 12) (sampleResponse.drop 15)
      (by unfold IsLabel; decide) chars
  have owner : Name sampleResponse 1 19 [['a']] 21 := by
    have first : sampleResponse[19]? = some 0xc0 := by decide +kernel
    have second : sampleResponse[20]? = some 12 := by decide +kernel
    exact .pointer first second (by decide) (by decide) (name 0)
  have type : uint16At sampleResponse 21 = 0x01 := by decide +kernel
  have length : uint16At sampleResponse (21 + 8) = 4 := by decide +kernel
  have address : bytesAt sampleResponse (21 + 10) 4 = [10, 0, 0, 1] := by decide +kernel
  refine ⟨by decide +kernel, by decide +kernel, by decide +kernel, 15, name 1, by decide +kernel,
    .cons owner (by decide +kernel) (by decide +kernel) ?_ (.nil _)⟩
  rw [type, length, ← address]
  exact .a

theorem parsing_exact_sample :
    parseResponse sampleResponse 2 = some (some ⟨['a'], [.a ['a'] [10, 0, 0, 1] 60]⟩) ∧
      ((getQuery ['a'] "A").isSome ↔
        ['a'].length ≤ 255 ∧ ∀ char ∈ ['a'], isDomainChar char = true) ∧
      ∀ u8, getQuery ['a'] "A" = some u8 →
        readHostname u8 2 12 = some (['a'].splitOn '.', u8.length - 4) ∧
          uint16At u8 (u8.length - 4) = queries "A" := by
  have split : ['a'].splitOn '.' = [['a']] := by decide +kernel
  have valid : ∀ label ∈ ['a'].splitOn '.', IsLabel label := by
    rw [split]
    unfold IsLabel
    decide
  exact parsing_exact sampleResponse_isResponse (.inl (by decide)) valid "A"

end JsOS.Component.Dns
