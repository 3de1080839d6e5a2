import Mathlib.Data.BitVec
import Mathlib.Data.List.Induction

/-! # Big-endian numbers

Numbers written with a fixed count of bytes, the most significant first. Writing after reading
gives the bytes back, and reading after writing the number, as far as the bytes reach.
-/

namespace BigEndian

/-- The number that bytes stand for. -/
def value (bytes : List UInt8) : ℕ := bytes.foldl (fun number byte => number * 256 + byte.toNat) 0

/-- The last bytes of a number, as many as asked for. -/
def digits : ℕ → ℕ → List UInt8
  | 0, _ => []
  | count + 1, number => digits count (number / 256) ++ [UInt8.ofNat number]

@[simp] theorem value_concat (front : List UInt8) (last : UInt8) :
    value (front ++ [last]) = value front * 256 + last.toNat := by
  rw [value, List.foldl_append, value]
  rfl

@[simp] theorem length_digits (count number : ℕ) : (digits count number).length = count := by
  induction count generalizing number with
  | zero => rfl
  | succ count ih =>
      rw [digits, List.length_append, ih]
      rfl

/-- **Reading gives back what was written**, as far as the bytes reach. -/
theorem value_digits (count number : ℕ) : value (digits count number) = number % 256 ^ count := by
  induction count generalizing number with
  | zero =>
      rw [Nat.pow_zero, Nat.mod_one]
      rfl
  | succ count ih =>
      have last : (UInt8.ofNat number).toNat = number % 256 := UInt8.toNat_ofNat'
      rw [digits, value_concat, ih, last, Nat.pow_succ, Nat.mul_comm (256 ^ count), Nat.mod_mul]
      omega

theorem value_digits_of_lt {count number : ℕ} (small : number < 256 ^ count) :
    value (digits count number) = number := by
  rw [value_digits, Nat.mod_eq_of_lt small]

theorem value_lt (bytes : List UInt8) : value bytes < 256 ^ bytes.length := by
  induction bytes using List.reverseRecOn with
  | nil => exact Nat.one_pos
  | append_singleton front last ih =>
      have byte : last.toNat < 256 := last.toNat_lt
      rw [value_concat, List.length_append]
      change value front * 256 + last.toNat < 256 ^ (front.length + 1)
      rw [Nat.pow_succ]
      omega

/-- **Writing gives back what was read.** -/
theorem digits_value (bytes : List UInt8) : digits bytes.length (value bytes) = bytes := by
  induction bytes using List.reverseRecOn with
  | nil => rfl
  | append_singleton front last ih =>
      have byte : last.toNat < 256 := last.toNat_lt
      have quotient : (value front * 256 + last.toNat) / 256 = value front := by omega
      have digit : UInt8.ofNat (value front * 256 + last.toNat) = last := by
        apply UInt8.toNat_inj.mp
        rw [UInt8.toNat_ofNat']
        omega
      rw [value_concat, List.length_append]
      change digits (front.length + 1) (value front * 256 + last.toNat) = front ++ [last]
      rw [digits, quotient, digit, ih]

theorem digits_mod (count number : ℕ) : digits count (number % 256 ^ count) = digits count number := by
  have back := digits_value (digits count number)
  rwa [length_digits, value_digits] at back

end BigEndian
