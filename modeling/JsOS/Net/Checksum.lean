import JsOS.Library.OnesComplement
import JsOS.Net.Tcp.Segment

/-! # Checksums

`checksum.js`: the sum of the words of a buffer, folded twice into 16 bits and
complemented, at once or in parts. The sums are exact numbers, of which the folding takes
the low 32 bits.
-/

namespace JsOS.Net.Checksum

open OnesComplement (wordSum)
open Tcp (Bytes)

/-- `u8[index]`; all callers stay inside the array. -/
def byte (u8 : Bytes) (index : Nat) : Nat := (u8.getD index 0).toNat

/-- The loop of `checksum` and of `buffer`, and the byte that is left over. -/
def accumulate (u8 : Bytes) (offset len acc : Nat) : Nat :=
  let count := len / 2
  let acc := (List.range count).foldl (fun acc i =>
    acc + (byte u8 (offset + i * 2) * 2 ^ 8 + byte u8 (offset + i * 2 + 1))) acc
  if count * 2 ≠ len then acc + byte u8 (offset + count * 2) * 2 ^ 8 else acc

/-- `checksum.result`. -/
def result (accOpt : Nat) : Nat :=
  let acc := accOpt % 2 ^ 16 + accOpt % 2 ^ 32 / 2 ^ 16
  let acc := acc + acc / 2 ^ 16
  0xffff - acc % 2 ^ 16

/-- `checksum.buffer`. -/
def buffer (u8 : Bytes) (offset len : Nat) : Nat := accumulate u8 offset len 0

/-- `checksum`, which ends as `result` does. -/
def checksum (u8 : Bytes) (offset len extraSum : Nat) : Nat :=
  result (accumulate u8 offset len (extraSum % 2 ^ 32))

theorem byte_append (front rest : Bytes) (index : Nat) :
    byte (front ++ rest) (front.length + index) = byte rest index := by
  unfold byte
  rw [List.getD_eq_getElem?_getD, List.getElem?_append_right (Nat.le_add_right _ _),
    Nat.add_sub_cancel_left, ← List.getD_eq_getElem?_getD]

/-- One more round of the loop in front. -/
theorem accumulate_add_two (u8 : Bytes) (offset len acc : Nat) :
    accumulate u8 offset (len + 2) acc =
      accumulate u8 (offset + 2) len (acc + (byte u8 offset * 2 ^ 8 + byte u8 (offset + 1))) := by
  have later (i : Nat) : offset + (i + 1) * 2 = offset + 2 + i * 2 := by omega
  have count : (len + 2) / 2 = len / 2 + 1 := by omega
  have left : ((len / 2 + 1) * 2 ≠ len + 2) = (len / 2 * 2 ≠ len) :=
    propext (not_congr (by omega))
  unfold accumulate
  rw [count]
  dsimp only
  rw [List.range_succ_eq_map, List.foldl_cons, List.foldl_map, Nat.zero_mul, Nat.add_zero]
  simp only [Nat.succ_eq_add_one, Nat.add_zero, later, left]

/-- The loop adds the words of the bytes. -/
theorem accumulate_window (front bytes back : Bytes) (acc : Nat) :
    accumulate (front ++ bytes ++ back) front.length bytes.length acc = acc + wordSum bytes := by
  induction bytes using OnesComplement.words.induct generalizing front acc with
  | case1 => rfl
  | case2 high =>
      have first : byte (front ++ [high] ++ back) (front.length + 0 * 2) = high.toNat := by
        rw [List.append_assoc]
        exact byte_append front ([high] ++ back) 0
      unfold accumulate
      dsimp only [List.length_singleton]
      rw [if_pos (by decide), first, OnesComplement.wordSum_singleton]
      rfl
  | case3 high low bytes ih =>
      have whole : front ++ high :: low :: bytes ++ back =
          front ++ [high, low] ++ bytes ++ back := by simp
      have first : byte (front ++ high :: low :: bytes ++ back) front.length = high.toNat := by
        rw [List.append_assoc]
        exact byte_append front (high :: low :: bytes ++ back) 0
      have second : byte (front ++ high :: low :: bytes ++ back) (front.length + 1) =
          low.toNat := by
        rw [List.append_assoc]
        exact byte_append front (high :: low :: bytes ++ back) 1
      have next := ih (front ++ [high, low]) (acc + (high.toNat * 2 ^ 8 + low.toNat))
      rw [List.length_append] at next
      rw [List.length_cons, List.length_cons, accumulate_add_two, first, second, whole]
      refine next.trans ?_
      rw [OnesComplement.wordSum_cons_cons, Nat.add_assoc]

theorem buffer_window (front bytes back : Bytes) :
    buffer (front ++ bytes ++ back) front.length bytes.length = wordSum bytes :=
  (accumulate_window front bytes back 0).trans (Nat.zero_add _)

theorem buffer_all (bytes : Bytes) : buffer bytes 0 bytes.length = wordSum bytes := by
  have whole := buffer_window [] bytes []
  rwa [List.append_nil] at whole

theorem result_mod (acc : Nat) : result (acc % 2 ^ 32) = result acc := by
  unfold result
  rw [Nat.mod_mod, Nat.mod_mod_of_dvd acc (by decide)]

theorem result_congr {first second : Nat} (same : first % 2 ^ 32 = second % 2 ^ 32) :
    result first = result second := by
  rw [← result_mod first, same, result_mod]

theorem checksum_window (front bytes back : Bytes) (extraSum : Nat) :
    checksum (front ++ bytes ++ back) front.length bytes.length extraSum =
      result (extraSum + wordSum bytes) := by
  unfold checksum
  rw [accumulate_window]
  exact result_congr (Nat.mod_add_mod _ _ _)

theorem checksum_all (bytes : Bytes) (extraSum : Nat) :
    checksum bytes 0 bytes.length extraSum = result (extraSum + wordSum bytes) := by
  have whole := checksum_window [] bytes [] extraSum
  rwa [List.append_nil] at whole

/-- **The parts of a checksum make up the whole**, if the first has an even length. -/
theorem result_buffer_append (first second : Bytes) (even : first.length % 2 = 0)
    (extraSum : Nat) :
    result (buffer first 0 first.length + buffer second 0 second.length + extraSum) =
      checksum (first ++ second) 0 (first ++ second).length extraSum := by
  rw [checksum_all, buffer_all, buffer_all, OnesComplement.wordSum_append _ _ even, Nat.add_comm]

/-- Folding twice adds the two halves with end-around carry. -/
theorem folded_cases (value : Nat) (below : value < 2 ^ 32) :
    ∃ multiple, 0 < multiple ∧ value + result value = 65535 * multiple ∧
      result value < 2 ^ 16 ∧ (result value = 0xffff → value = 0) := by
  have halves : value = 2 ^ 16 * (value / 2 ^ 16) + value % 2 ^ 16 := (Nat.div_add_mod _ _).symm
  have lowLt : value % 2 ^ 16 < 2 ^ 16 := Nat.mod_lt _ (by decide)
  have highLt : value / 2 ^ 16 < 2 ^ 16 := by omega
  unfold result
  rw [Nat.mod_eq_of_lt below]
  dsimp only
  generalize value % 2 ^ 16 = low at halves lowLt
  generalize value / 2 ^ 16 = high at halves highLt
  by_cases carry : low + high < 2 ^ 16
  · rw [Nat.div_eq_of_lt carry, Nat.add_zero, Nat.mod_eq_of_lt carry]
    exact ⟨high + 1, by omega, by omega, by omega, by omega⟩
  · have one : (low + high) / 2 ^ 16 = 1 := by omega
    rw [one]
    exact ⟨high + 2, by omega, by omega, by omega, by omega⟩

/-- **What the folding does.** The result is the complement, in one's-complement arithmetic, of
the low 32 bits of the sum. -/
theorem result_spec (acc : Nat) :
    result acc < 2 ^ 16 ∧ (acc % 2 ^ 32 + result acc) % 65535 = 0 ∧
      acc % 2 ^ 32 + result acc ≠ 0 ∧
      (result acc = 0 ↔ 0 < acc % 2 ^ 32 ∧ acc % 2 ^ 32 % 65535 = 0) := by
  obtain ⟨multiple, positive, total, small, ones⟩ :=
    folded_cases (acc % 2 ^ 32) (Nat.mod_lt _ (by decide))
  rw [result_mod] at total small ones
  refine ⟨small, ?_, ?_, ?_⟩
  · rw [total, Nat.mul_mod_right]
  · omega
  · omega

end JsOS.Net.Checksum
