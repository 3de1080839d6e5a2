import JsOS.Component.DnsPacket
import JsOS.Library.Saturation

/-! # Complete responses

Which datagrams `parseResponse` returns for. A read past the end throws, and so does a name whose
pointers lead back to where they came from, since each pointer is followed by a call of
`readHostname`. So the datagrams are those whose fields are all there, up to the point where the
response is refused, and whose names come to an end.
-/

namespace JsOS.Component.Dns

variable {u8 : List UInt8} {offset next : ℕ}

/-! ## What is there -/

/-- A number of 16 bits in the datagram. -/
def uint16At (u8 : List UInt8) (offset : ℕ) : ℕ :=
  (u8.getD offset 0).toNat * 256 + (u8.getD (offset + 1) 0).toNat

/-- A number of 32 bits. -/
def uint32At (u8 : List UInt8) (offset : ℕ) : ℕ :=
  uint16At u8 offset * 65536 + uint16At u8 (offset + 2)

/-- The labels of a name from a length byte on, with the place behind the name. A pointer ends a
name, and has to lead to another one. -/
inductive Labels (u8 : List UInt8) (target : ℕ → Prop) : ℕ → ℕ → Prop
  | stop {offset : ℕ} (zero : u8[offset]? = some 0) : Labels u8 target offset (offset + 1)
  | pointer {offset : ℕ} {high low : UInt8} (first : u8[offset]? = some high)
      (marked : isPointer high.toNat = true) (second : u8[offset + 1]? = some low)
      (leads : target ((high.toNat - 0xc0) * 256 + low.toNat)) :
      Labels u8 target offset (offset + 2)
  | label {offset next : ℕ} {len : UInt8} (first : u8[offset]? = some len) (filled : len ≠ 0)
      (plain : isPointer len.toNat = false) (room : offset + 1 + len.toNat ≤ u8.length)
      (later : Labels u8 target (offset + 1 + len.toNat) next) : Labels u8 target offset next

/-- **A name at a place, with the place behind it**, that comes to an end within a number of
calls. Behind the end of the datagram a name is empty. -/
def Hostname (u8 : List UInt8) : ℕ → ℕ → ℕ → Prop
  | 0, _, _ => False
  | calls + 1, offset, next =>
      u8.length ≤ offset ∧ next = offset ∨
        offset < u8.length ∧
          Labels u8 (fun target => ∃ last, Hostname u8 calls target last) offset next

/-- **The answers that are read**: a number of them, or those up to an address that does not have 4
bytes. -/
inductive Answers (u8 : List UInt8) (calls : ℕ) : ℕ → ℕ → Prop
  | done (offset : ℕ) : Answers u8 calls 0 offset
  | refused {answers offset next : ℕ} (host : Hostname u8 calls offset next)
      (fields : next + 10 ≤ u8.length) (address : uint16At u8 next = queries "A")
      (other : uint16At u8 (next + 8) ≠ 4) : Answers u8 calls (answers + 1) offset
  | address {answers offset next : ℕ} (host : Hostname u8 calls offset next)
      (fields : next + 14 ≤ u8.length) (address : uint16At u8 next = queries "A")
      (four : uint16At u8 (next + 8) = 4) (later : Answers u8 calls answers (next + 14)) :
      Answers u8 calls (answers + 1) offset
  | cname {answers offset next last : ℕ} (host : Hostname u8 calls offset next)
      (fields : next + 10 ≤ u8.length) (isAlias : uint16At u8 next = queries "CNAME")
      (name : Hostname u8 calls (next + 10) last) (later : Answers u8 calls answers last) :
      Answers u8 calls (answers + 1) offset
  | other {answers offset next : ℕ} (host : Hostname u8 calls offset next)
      (fields : next + 10 + uint16At u8 (next + 8) ≤ u8.length)
      (notAddress : uint16At u8 next ≠ queries "A") (notAlias : uint16At u8 next ≠ queries "CNAME")
      (later : Answers u8 calls answers (next + 10 + uint16At u8 (next + 8))) :
      Answers u8 calls (answers + 1) offset

/-- **The datagram is complete** as far as it is read: it has the id of another request, or a header
with another number of questions than one, or its question and its answers. -/
def Complete (u8 : List UInt8) (calls : ℕ) : Prop :=
  2 ≤ u8.length ∧
    (uint16At u8 0 ≠ randomId ∨
      12 ≤ u8.length ∧
        (uint16At u8 4 ≠ 1 ∨
          ∃ next, Hostname u8 calls 12 next ∧ next + 4 ≤ u8.length ∧
            Answers u8 calls (uint16At u8 6) (next + 4)))

/-! ## Fields -/

theorem readUint8_eq (u8 : List UInt8) (offset : ℕ) :
    readUint8 u8 offset =
      if offset < u8.length then some ((u8.getD offset 0).toNat, offset + 1) else none := by
  rw [readUint8, List.getD_eq_getElem?_getD]
  by_cases inside : offset < u8.length
  · rw [if_pos inside, List.getElem?_eq_getElem inside]
    rfl
  · rw [if_neg inside, List.getElem?_eq_none (Nat.le_of_not_lt inside)]
    rfl

theorem readUint16_eq (u8 : List UInt8) (offset : ℕ) :
    readUint16 u8 offset =
      if offset + 2 ≤ u8.length then some (uint16At u8 offset, offset + 2) else none := by
  rw [readUint16, readUint8_eq]
  by_cases first : offset < u8.length
  · rw [if_pos first, Option.bind_eq_bind, Option.bind_some]
    dsimp only
    rw [readUint8_eq]
    by_cases second : offset + 1 < u8.length
    · rw [if_pos second, if_pos (by omega)]
      rfl
    · rw [if_neg second, if_neg (by omega)]
      rfl
  · rw [if_neg first, if_neg (by omega)]
    rfl

/-- A word is there when its bytes are. -/
theorem readUint32_eq (u8 : List UInt8) (offset : ℕ) :
    readUint32 u8 offset =
      if offset + 4 ≤ u8.length then some (uint32At u8 offset, offset + 4) else none := by
  rw [readUint32, readUint16_eq]
  by_cases first : offset + 2 ≤ u8.length
  · rw [if_pos first, Option.bind_eq_bind, Option.bind_some]
    dsimp only
    rw [readUint16_eq]
    by_cases second : offset + 2 + 2 ≤ u8.length
    · rw [if_pos second, if_pos second]
      rfl
    · rw [if_neg second, if_neg second]
      rfl
  · rw [if_neg first, if_neg (by omega)]
    rfl

/-- A number of bytes is read when they are all there. -/
theorem readBytes_cases (count : ℕ) (inside : offset ≤ u8.length) :
    (offset + count ≤ u8.length ∧ ∃ bytes, readBytes u8 count offset = some (bytes, offset + count)) ∨
      u8.length < offset + count ∧ readBytes u8 count offset = none := by
  induction count generalizing offset with
  | zero => exact .inl ⟨inside, [], rfl⟩
  | succ count ih =>
      rw [readBytes, readUint8_eq]
      by_cases first : offset < u8.length
      · rw [if_pos first, Option.bind_eq_bind, Option.bind_some]
        dsimp only
        rcases ih first with ⟨room, bytes, read⟩ | ⟨cut, failed⟩
        · refine .inl ⟨by omega, (u8.getD offset 0).toNat :: bytes, ?_⟩
          rw [read, Nat.add_right_comm offset 1 count]
          rfl
        · refine .inr ⟨by omega, ?_⟩
          rw [failed]
          rfl
      · rw [if_neg first]
        exact .inr ⟨by omega, rfl⟩

/-! ## Names -/

theorem lt_length_of_byte {byte : UInt8} (found : u8[offset]? = some byte) : offset < u8.length :=
  (List.getElem?_eq_some_iff.mp found).1

theorem readUint8_of_byte {byte : UInt8} (found : u8[offset]? = some byte) :
    readUint8 u8 offset = some (byte.toNat, offset + 1) := by
  rw [readUint8, found]
  rfl

section Rounds

variable {follow : ℕ → Option (List (List Char) × ℕ)} {rounds : ℕ} {labels : List (List Char)}

theorem readLabels_cut (past : u8[offset]? = none) :
    readLabels u8 follow (rounds + 1) offset labels = none := by
  rw [readLabels, readUint8, past]
  rfl

theorem readLabels_stop (zero : u8[offset]? = some 0) :
    readLabels u8 follow (rounds + 1) offset labels = some (labels, offset + 1) := by
  rw [readLabels, readUint8_of_byte zero]
  rfl

theorem toNat_ne_zero {byte : UInt8} (filled : byte ≠ 0) : byte.toNat ≠ 0 :=
  fun zero => filled (UInt8.toNat_inj.mp zero)

theorem readLabels_pointer {high : UInt8} (first : u8[offset]? = some high)
    (marked : isPointer high.toNat = true) :
    readLabels u8 follow (rounds + 1) offset labels =
      u8[offset + 1]?.bind fun low =>
        (follow ((high.toNat - 0xc0) * 256 + low.toNat)).map fun rest =>
          (labels ++ rest.1, offset + 2) := by
  have filled : high ≠ 0 := by
    rintro rfl
    exact (nomatch marked)
  rw [readLabels, readUint8_of_byte first, Option.bind_eq_bind, Option.bind_some]
  dsimp only
  rw [if_neg (toNat_ne_zero filled), if_pos marked, readUint8]
  cases u8[offset + 1]? with
  | none => rfl
  | some low =>
      rw [Option.map_some, Option.bind_eq_bind, Option.bind_some, Option.bind_some]
      cases follow ((high.toNat - 0xc0) * 256 + low.toNat) with
      | none => rfl
      | some rest => rfl

theorem readLabels_label {len : UInt8} (first : u8[offset]? = some len) (filled : len ≠ 0)
    (plain : isPointer len.toNat = false) :
    readLabels u8 follow (rounds + 1) offset labels =
      (readBytes u8 len.toNat (offset + 1)).bind fun bytes =>
        readLabels u8 follow rounds bytes.2 (labels ++ [bytes.1.map Char.ofNat]) := by
  have notMarked : ¬isPointer len.toNat = true := by
    rw [plain]
    exact Bool.false_ne_true
  rw [readLabels, readUint8_of_byte first, Option.bind_eq_bind, Option.bind_some]
  dsimp only
  rw [if_neg (toNat_ne_zero filled), if_neg notMarked]
  rfl

/-- **The labels that are read are there.** A label has more bytes than it takes rounds, so the
loop does not run out of rounds. -/
theorem labels_of_readLabels {result : List (List Char)} (enough : u8.length - offset ≤ rounds)
    (left : 0 < rounds)
    (read : readLabels u8 follow rounds offset labels = some (result, next)) :
    Labels u8 (fun target => (follow target).isSome) offset next := by
  induction rounds generalizing offset labels with
  | zero => exact absurd left (Nat.lt_irrefl 0)
  | succ rounds ih =>
      cases first : u8[offset]? with
      | none =>
          rw [readLabels_cut first] at read
          exact (nomatch read)
      | some len =>
          have inside := lt_length_of_byte first
          by_cases zero : len = 0
          · subst zero
            rw [readLabels_stop first] at read
            obtain ⟨-, rfl⟩ := Prod.mk.inj (Option.some.inj read)
            exact .stop first
          · cases marked : isPointer len.toNat with
            | true =>
                rw [readLabels_pointer first marked] at read
                obtain ⟨low, second, read⟩ := Option.bind_eq_some_iff.mp read
                obtain ⟨rest, leads, same⟩ := Option.map_eq_some_iff.mp read
                obtain ⟨-, rfl⟩ := Prod.mk.inj same
                exact .pointer first marked second (Option.isSome_of_eq_some leads)
            | false =>
                have positive := Nat.pos_of_ne_zero (toNat_ne_zero zero)
                rw [readLabels_label first zero marked] at read
                rcases readBytes_cases len.toNat (Nat.succ_le_of_lt inside) with
                  ⟨room, bytes, found⟩ | ⟨-, failed⟩
                · rw [found] at read
                  exact .label first zero marked room (ih (by omega) (by omega) read)
                · rw [failed] at read
                  exact (nomatch read)

/-- **Labels that are there are read.** -/
theorem Labels.read {target : ℕ → Prop} (there : Labels u8 target offset next)
    (follows : ∀ place, target place → (follow place).isSome)
    (enough : u8.length - offset ≤ rounds) (left : 0 < rounds) :
    ∃ result, readLabels u8 follow rounds offset labels = some (result, next) := by
  induction there generalizing rounds labels with
  | stop zero =>
      obtain ⟨rounds, rfl⟩ := Nat.exists_eq_succ_of_ne_zero (Nat.ne_of_gt left)
      exact ⟨labels, readLabels_stop zero⟩
  | @pointer offset high low first marked second leads =>
      obtain ⟨rounds, rfl⟩ := Nat.exists_eq_succ_of_ne_zero (Nat.ne_of_gt left)
      obtain ⟨rest, found⟩ := Option.isSome_iff_exists.mp (follows _ leads)
      refine ⟨labels ++ rest.1, ?_⟩
      rw [readLabels_pointer first marked, second, Option.bind_some, found]
      rfl
  | @label offset next len first filled plain room later ih =>
      obtain ⟨rounds, rfl⟩ := Nat.exists_eq_succ_of_ne_zero (Nat.ne_of_gt left)
      have inside := lt_length_of_byte first
      have positive := Nat.pos_of_ne_zero (toNat_ne_zero filled)
      rw [readLabels_label first filled plain]
      rcases readBytes_cases len.toNat (Nat.succ_le_of_lt inside) with
        ⟨-, bytes, found⟩ | ⟨cut, -⟩
      · rw [found]
        exact ih (by omega) (by omega)
      · omega

end Rounds

theorem Labels.mono {first second : ℕ → Prop} (labels : Labels u8 first offset next)
    (weaker : ∀ target, first target → second target) : Labels u8 second offset next := by
  induction labels with
  | stop zero => exact .stop zero
  | pointer first marked second leads => exact .pointer first marked second (weaker _ leads)
  | label first filled plain room later ih => exact .label first filled plain room ih

/-- **A name is read exactly when it is there** and comes to an end within the calls. -/
theorem readHostname_iff {calls : ℕ} :
    (∃ labels, readHostname u8 calls offset = some (labels, next)) ↔
      Hostname u8 calls offset next := by
  induction calls generalizing offset next with
  | zero => exact iff_of_false (fun ⟨_, read⟩ => (nomatch read)) id
  | succ calls ih =>
      have targets (place : ℕ) : (readHostname u8 calls place).isSome ↔
          ∃ last, Hostname u8 calls place last := by
        rw [Option.isSome_iff_exists, Prod.exists, exists_comm]
        exact exists_congr fun last => ih
      rw [readHostname, Hostname]
      by_cases past : u8.length ≤ offset
      · have none : u8.length - offset = 0 := Nat.sub_eq_zero_of_le past
        rw [none]
        constructor
        · rintro ⟨labels, read⟩
          exact .inl ⟨past, (Prod.mk.inj (Option.some.inj read)).2.symm⟩
        · rintro (⟨-, rfl⟩ | ⟨inside, -⟩)
          · exact ⟨[], rfl⟩
          · exact absurd inside (Nat.not_lt.mpr past)
      · have inside := Nat.lt_of_not_le past
        constructor
        · rintro ⟨labels, read⟩
          refine .inr ⟨inside, ?_⟩
          exact (labels_of_readLabels le_rfl (Nat.sub_pos_of_lt inside) read).mono
            fun target => (targets target).mp
        · rintro (⟨absurd_, -⟩ | ⟨-, there⟩)
          · exact absurd absurd_ past
          · exact there.read (fun place leads => (targets place).mpr leads) le_rfl
              (Nat.sub_pos_of_lt inside)

/-! ## Answers -/

section AnswerRounds

variable {calls answers : ℕ} {results : List DnsRecord} {labels : List (List Char)}

theorem readAnswers_cut (host : readHostname u8 calls offset = some (labels, next))
    (cut : u8.length < next + 10) : readAnswers u8 calls (answers + 1) offset results = none := by
  rw [readAnswers, host, Option.bind_eq_bind, Option.bind_some]
  dsimp only
  rw [readUint16_eq]
  by_cases type : next + 2 ≤ u8.length
  · rw [if_pos type, Option.bind_eq_bind, Option.bind_some]
    dsimp only
    rw [readUint16_eq]
    by_cases class_ : next + 2 + 2 ≤ u8.length
    · rw [if_pos class_, Option.bind_eq_bind, Option.bind_some]
      dsimp only
      rw [readUint32_eq]
      by_cases ttl : next + 2 + 2 + 4 ≤ u8.length
      · rw [if_pos ttl, Option.bind_some]
        dsimp only
        rw [readUint16_eq, if_neg (by omega)]
        rfl
      · rw [if_neg ttl]
        rfl
    · rw [if_neg class_]
      rfl
  · rw [if_neg type]
    rfl

/-- A round with the fields of its record. -/
theorem readAnswers_fields (host : readHostname u8 calls offset = some (labels, next))
    (fields : next + 10 ≤ u8.length) :
    readAnswers u8 calls (answers + 1) offset results =
      if uint16At u8 next = queries "A" then
        if uint16At u8 (next + 8) ≠ 4 then some none
        else (readBytes u8 4 (next + 10)).bind fun address =>
          readAnswers u8 calls answers address.2
            (results ++ [.a (join labels) address.1 (uint32At u8 (next + 4))])
      else if uint16At u8 next = queries "CNAME" then
        (readHostname u8 calls (next + 10)).bind fun name =>
          readAnswers u8 calls answers name.2 (results ++ [.cname (join labels) (join name.1)])
      else (readBytes u8 (uint16At u8 (next + 8)) (next + 10)).bind fun skipped =>
        readAnswers u8 calls answers skipped.2 results := by
  rw [readAnswers, host, Option.bind_eq_bind, Option.bind_some]
  dsimp only
  rw [readUint16_eq, if_pos (by omega), Option.bind_eq_bind, Option.bind_some]
  dsimp only
  rw [readUint16_eq, if_pos (by omega), Option.bind_eq_bind, Option.bind_some]
  dsimp only
  rw [readUint32_eq, if_pos (by omega), Option.bind_some]
  dsimp only
  rw [readUint16_eq, if_pos (by omega), Option.bind_some]
  rfl

end AnswerRounds

/-- **Answers that are read are there.** -/
theorem answers_of_readAnswers {calls answers : ℕ} {results : List DnsRecord}
    (read : (readAnswers u8 calls answers offset results).isSome) :
    Answers u8 calls answers offset := by
  induction answers generalizing offset results with
  | zero => exact .done offset
  | succ answers ih =>
      cases named : readHostname u8 calls offset with
      | none =>
          rw [readAnswers, named] at read
          exact (nomatch read)
      | some name =>
          have host := readHostname_iff.mp ⟨name.1, named⟩
          by_cases fields : name.2 + 10 ≤ u8.length
          · rw [@readAnswers_fields u8 offset name.2 calls answers results name.1 named fields] at read
            by_cases address : uint16At u8 name.2 = queries "A"
            · rw [if_pos address] at read
              by_cases four : uint16At u8 (name.2 + 8) ≠ 4
              · exact .refused host fields address four
              · rw [if_neg four] at read
                rcases readBytes_cases 4 fields with ⟨room, bytes, found⟩ | ⟨-, failed⟩
                · rw [found] at read
                  exact .address host room address (not_not.mp four) (ih read)
                · rw [failed] at read
                  exact (nomatch read)
            · rw [if_neg address] at read
              by_cases isAlias : uint16At u8 name.2 = queries "CNAME"
              · rw [if_pos isAlias] at read
                cases second : readHostname u8 calls (name.2 + 10) with
                | none =>
                    rw [second] at read
                    exact (nomatch read)
                | some target =>
                    rw [second] at read
                    exact .cname host fields isAlias (readHostname_iff.mp ⟨target.1, second⟩)
                      (ih read)
              · rw [if_neg isAlias] at read
                rcases readBytes_cases (uint16At u8 (name.2 + 8)) fields with
                  ⟨room, bytes, found⟩ | ⟨-, failed⟩
                · rw [found] at read
                  exact .other host room address isAlias (ih read)
                · rw [failed] at read
                  exact (nomatch read)
          · rw [readAnswers_cut named (Nat.lt_of_not_le fields)] at read
            exact (nomatch read)

/-- **Answers that are there are read.** -/
theorem Answers.read {calls answers : ℕ} (there : Answers u8 calls answers offset)
    (results : List DnsRecord) : (readAnswers u8 calls answers offset results).isSome := by
  induction there generalizing results with
  | done offset => rfl
  | refused host fields address other =>
      obtain ⟨labels, named⟩ := readHostname_iff.mpr host
      rw [readAnswers_fields named fields, if_pos address, if_pos other]
      rfl
  | @address answers offset next host fields address four later ih =>
      obtain ⟨labels, named⟩ := readHostname_iff.mpr host
      have header : next + 10 ≤ u8.length := by omega
      rw [readAnswers_fields named header, if_pos address, if_neg (not_not.mpr four)]
      rcases readBytes_cases 4 header with ⟨-, bytes, found⟩ | ⟨cut, -⟩
      · rw [found]
        exact ih _
      · omega
  | @cname answers offset next last host fields isAlias name later ih =>
      obtain ⟨labels, named⟩ := readHostname_iff.mpr host
      obtain ⟨target, second⟩ := readHostname_iff.mpr name
      have notAddress : uint16At u8 next ≠ queries "A" := by
        rw [isAlias]
        decide
      rw [readAnswers_fields named fields, if_neg notAddress, if_pos isAlias, second]
      exact ih _
  | @other answers offset next host fields notAddress notAlias later ih =>
      obtain ⟨labels, named⟩ := readHostname_iff.mpr host
      have header : next + 10 ≤ u8.length := by omega
      rw [readAnswers_fields named header, if_neg notAddress, if_neg notAlias]
      rcases readBytes_cases (uint16At u8 (next + 8)) header with ⟨-, bytes, found⟩ | ⟨cut, -⟩
      · rw [found]
        exact ih _
      · omega

/-! ## The response -/

/-- The question behind the header. -/
theorem readQuestion_eq (u8 : List UInt8) (calls : ℕ) :
    readQuestion u8 calls =
      (readHostname u8 calls 12).bind fun name =>
        if name.2 + 4 ≤ u8.length then
          some (join name.1, uint16At u8 name.2, uint16At u8 (name.2 + 2), name.2 + 4)
        else none := by
  rw [readQuestion]
  cases readHostname u8 calls 12 with
  | none => rfl
  | some name =>
      rw [Option.bind_eq_bind, Option.bind_some, Option.bind_some]
      dsimp only
      rw [readUint16_eq]
      by_cases type : name.2 + 2 ≤ u8.length
      · rw [if_pos type, Option.bind_eq_bind, Option.bind_some]
        dsimp only
        rw [readUint16_eq]
        by_cases class_ : name.2 + 2 + 2 ≤ u8.length
        · rw [if_pos class_, if_pos class_]
          rfl
        · rw [if_neg class_, if_neg class_]
          rfl
      · rw [if_neg type, if_neg (by omega)]
        rfl

/-- The header, and what comes after it. -/
theorem parseResponse_eq (u8 : List UInt8) (calls : ℕ) :
    parseResponse u8 calls =
      if 2 ≤ u8.length then
        if uint16At u8 0 ≠ randomId then some none
        else if 12 ≤ u8.length then
          if uint16At u8 4 ≠ 1 then some none
          else (readQuestion u8 calls).bind fun question =>
            (readAnswers u8 calls (uint16At u8 6) question.2.2.2 []).bind fun answers =>
              some (answers.map fun results => ⟨question.1, results⟩)
        else none
      else none := by
  have cutLater (place : ℕ) (rest : ℕ × ℕ → Option (Option Response))
      (cut : place + 2 ≤ u8.length → rest (uint16At u8 place, place + 2) = none) :
      (readUint16 u8 place).bind rest = none := by
    rw [readUint16_eq]
    by_cases room : place + 2 ≤ u8.length
    · rw [if_pos room, Option.bind_some, cut room]
    · rw [if_neg room]
      rfl
  have field (place : ℕ) (room : place + 2 ≤ u8.length) :
      readUint16 u8 place = some (uint16At u8 place, place + 2) := by
    rw [readUint16_eq, if_pos room]
  rw [parseResponse]
  by_cases two : 2 ≤ u8.length
  · rw [if_pos two, field 0 two, Option.bind_eq_bind, Option.bind_some]
    dsimp only
    by_cases own : uint16At u8 0 ≠ randomId
    · rw [if_pos own, if_pos own]
      rfl
    · rw [if_neg own, if_neg own]
      by_cases header : 12 ≤ u8.length
      · rw [if_pos header, field 2 (by omega), Option.bind_some]
        dsimp only
        rw [field 4 (by omega), Option.bind_some]
        dsimp only
        rw [field 6 (by omega), Option.bind_some]
        dsimp only
        rw [field 8 (by omega), Option.bind_some]
        dsimp only
        rw [field 10 (by omega), Option.bind_some]
        rfl
      · rw [if_neg header]
        refine cutLater 2 _ fun _ => cutLater 4 _ fun _ => cutLater 6 _ fun _ =>
          cutLater 8 _ fun _ => cutLater 10 _ fun room => absurd room header
  · rw [if_neg two, readUint16_eq, if_neg two]
    rfl

/-- **A response is returned exactly for a complete datagram.** -/
theorem parseResponse_isSome_iff (u8 : List UInt8) (calls : ℕ) :
    (parseResponse u8 calls).isSome ↔ Complete u8 calls := by
  rw [parseResponse_eq, Complete]
  by_cases two : 2 ≤ u8.length
  · rw [if_pos two, and_iff_right two]
    by_cases own : uint16At u8 0 ≠ randomId
    · rw [if_pos own]
      exact iff_of_true rfl (.inl own)
    · rw [if_neg own, or_iff_right own]
      by_cases header : 12 ≤ u8.length
      · rw [if_pos header, and_iff_right header]
        by_cases one : uint16At u8 4 ≠ 1
        · rw [if_pos one]
          exact iff_of_true rfl (.inl one)
        · rw [if_neg one, or_iff_right one, readQuestion_eq]
          constructor
          · intro returned
            cases named : readHostname u8 calls 12 with
            | none =>
                rw [named] at returned
                exact (nomatch returned)
            | some name =>
                rw [named, Option.bind_some] at returned
                by_cases fields : name.2 + 4 ≤ u8.length
                · rw [if_pos fields, Option.bind_some] at returned
                  have answers := Option.isSome_of_isSome_bind returned
                  exact ⟨name.2, readHostname_iff.mp ⟨name.1, named⟩, fields,
                    answers_of_readAnswers answers⟩
                · rw [if_neg fields] at returned
                  exact (nomatch returned)
          · rintro ⟨next, host, fields, answers⟩
            obtain ⟨labels, named⟩ := readHostname_iff.mpr host
            obtain ⟨results, read⟩ := Option.isSome_iff_exists.mp (answers.read [])
            rw [named, Option.bind_some, if_pos fields, Option.bind_some, read]
            rfl
      · rw [if_neg header]
        exact iff_of_false Bool.false_ne_true fun both => header both.1
  · rw [if_neg two]
    exact iff_of_false Bool.false_ne_true fun both => two both.1

/-! ## Pointers that lead on -/

/-- A name that comes to an end within a number of calls. -/
def Ends (u8 : List UInt8) (calls offset : ℕ) : Prop := ∃ next, Hostname u8 calls offset next

/-- A pointer has 14 bits. -/
theorem Labels.near {target : ℕ → Prop} (labels : Labels u8 target offset next) :
    Labels u8 (fun place => place < 2 ^ 14 ∧ target place) offset next := by
  induction labels with
  | stop zero => exact .stop zero
  | @pointer offset high low first marked second leads =>
      have highByte := high.toNat_lt
      have lowByte := low.toNat_lt
      exact .pointer first marked second ⟨by omega, leads⟩
  | label first filled plain room later ih => exact .label first filled plain room ih

/-- What a name needs of the places that its pointer may lead to. -/
theorem Hostname.of_targets {calls others : ℕ} (host : Hostname u8 (calls + 1) offset next)
    (targets : ∀ place < 2 ^ 14, Ends u8 calls place → Ends u8 others place) :
    Hostname u8 (others + 1) offset next := by
  rcases host with past | ⟨inside, labels⟩
  · exact .inl past
  · exact .inr ⟨inside, labels.near.mono fun place both => targets place both.1 both.2⟩

theorem Hostname.succ {calls : ℕ} (host : Hostname u8 calls offset next) :
    Hostname u8 (calls + 1) offset next := by
  induction calls generalizing offset next with
  | zero => exact host.elim
  | succ calls ih => exact host.of_targets fun place _ ⟨last, ends⟩ => ⟨last, ih ends⟩

/-- **Calls for every place that a pointer can lead to are enough for every name that comes to an
end.** -/
theorem Hostname.enough {calls : ℕ} (host : Hostname u8 calls offset next) :
    Hostname u8 (2 ^ 14 + 1) offset next := by
  classical
  let levels (calls : ℕ) : Finset ℕ := (Finset.range (2 ^ 14)).filter (Ends u8 calls)
  have mem (calls place : ℕ) : place ∈ levels calls ↔ place < 2 ^ 14 ∧ Ends u8 calls place := by
    rw [Finset.mem_filter, Finset.mem_range]
  have grows (calls : ℕ) : levels calls ⊆ levels (calls + 1) := by
    intro place
    rw [mem, mem]
    rintro ⟨near, last, ends⟩
    exact ⟨near, last, ends.succ⟩
  have stays (calls : ℕ) (same : levels calls = levels (calls + 1)) :
      levels (calls + 1) = levels (calls + 2) := by
    refine (grows (calls + 1)).antisymm fun place => ?_
    rw [mem, mem]
    rintro ⟨near, last, ends⟩
    refine ⟨near, last, ends.of_targets fun target close ended => ?_⟩
    have among : target ∈ levels (calls + 1) := (mem _ _).mpr ⟨close, ended⟩
    rw [← same, mem] at among
    exact among.2
  cases calls with
  | zero => exact host.elim
  | succ calls =>
      refine host.of_targets fun place near ends => ?_
      have reached := Saturation.subset_card grows (fun _ => Finset.filter_subset _ _) stays calls
        ((mem _ _).mpr ⟨near, ends⟩)
      rw [Finset.card_range, mem] at reached
      exact reached.2

theorem Answers.mono {calls others answers : ℕ} (there : Answers u8 calls answers offset)
    (hosts : ∀ offset next, Hostname u8 calls offset next → Hostname u8 others offset next) :
    Answers u8 others answers offset := by
  induction there with
  | done offset => exact .done offset
  | refused host fields address other => exact .refused (hosts _ _ host) fields address other
  | address host fields address four later ih =>
      exact .address (hosts _ _ host) fields address four ih
  | cname host fields isAlias name later ih =>
      exact .cname (hosts _ _ host) fields isAlias (hosts _ _ name) ih
  | other host fields notAddress notAlias later ih =>
      exact .other (hosts _ _ host) fields notAddress notAlias ih

theorem Complete.enough {calls : ℕ} (complete : Complete u8 calls) :
    Complete u8 (2 ^ 14 + 1) := by
  refine ⟨complete.1, complete.2.imp_right fun header => ⟨header.1, header.2.imp_right ?_⟩⟩
  rintro ⟨next, host, fields, answers⟩
  exact ⟨next, host.enough, fields, answers.mono fun _ _ => Hostname.enough⟩

/-- **A response is returned exactly for a complete datagram**, and when it is returned for some
depth of calls then for one for each place that a pointer can lead to. -/
theorem parseResponse_returns_iff (u8 : List UInt8) (calls : ℕ) :
    ((parseResponse u8 calls).isSome ↔ Complete u8 calls) ∧
      ((parseResponse u8 calls).isSome → (parseResponse u8 (2 ^ 14 + 1)).isSome) := by
  refine ⟨parseResponse_isSome_iff u8 calls, fun returned => ?_⟩
  rw [parseResponse_isSome_iff] at returned ⊢
  exact returned.enough

/-- An answer with an address for a name that is a pointer to the question's. -/
def sampleResponse : List UInt8 :=
  uint16 randomId ++ uint16 0x8180 ++ uint16 1 ++ uint16 1 ++ uint16 0 ++ uint16 0 ++
    labelBytes ['a'] ++ [0] ++ uint16 1 ++ uint16 1 ++
    ([0xc0, 12] ++ uint16 1 ++ uint16 1 ++ uint16 0 ++ uint16 60 ++ uint16 4 ++ [10, 0, 0, 1])

theorem parseResponse_sample : (parseResponse sampleResponse (2 ^ 14 + 1)).isSome :=
  (parseResponse_returns_iff sampleResponse 2).2 (by decide +kernel)

/-- A question whose name is a pointer to itself. -/
def selfPointer : List UInt8 :=
  uint16 randomId ++ uint16 0x8180 ++ uint16 1 ++ uint16 0 ++ uint16 0 ++ uint16 0 ++
    [0xc0, 12] ++ uint16 1 ++ uint16 1

theorem readHostname_selfPointer (calls : ℕ) : readHostname selfPointer calls 12 = none := by
  induction calls with
  | zero => rfl
  | succ calls ih =>
      have first : selfPointer[12]? = some 0xc0 := by decide +kernel
      have second : selfPointer[12 + 1]? = some 12 := by decide +kernel
      have rounds : selfPointer.length - 12 = 5 + 1 := by decide +kernel
      rw [readHostname, rounds, readLabels_pointer first (by decide), second, Option.bind_some]
      change (readHostname selfPointer calls 12).map _ = none
      rw [ih]
      rfl

/-- No depth of calls is enough for a pointer to itself. -/
theorem selfPointer_not_returns : ¬∃ calls, (parseResponse selfPointer calls).isSome := by
  rintro ⟨calls, returned⟩
  rw [parseResponse_eq, readQuestion_eq, readHostname_selfPointer] at returned
  have none : ¬(if 2 ≤ selfPointer.length then
      if uint16At selfPointer 0 ≠ randomId then some none
      else if 12 ≤ selfPointer.length then
        if uint16At selfPointer 4 ≠ 1 then some (none : Option Response) else none
      else none
    else none).isSome = true := by
    decide +kernel
  exact none returned

end JsOS.Component.Dns
