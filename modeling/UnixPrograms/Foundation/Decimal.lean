import Mathlib.Tactic.IntervalCases
import UnixPrograms.Foundation.CString

/-!
# Decimal numerals

The numeral that `%d` prints, `snprintf` into an array, and the way back
through `atoi`.
-/

namespace UnixPrograms
namespace Foundation

def decimal (n : Nat) : Bytes :=
  text (Nat.toDigits 10 n)

/-- `snprintf` of a text without zeros: at most `n - 1` bytes of it and a
terminator over the beginning of `dst`. -/
def snprintf (dst s : Bytes) (n : Nat) : Bytes :=
  let written := s.take (n - 1)
  written ++ 0 :: dst.drop (written.length + 1)

theorem cstr_snprintf {s : Bytes} (h : NoNul s) (dst : Bytes) (n : Nat) :
    cstr (snprintf dst s n) = s.take (n - 1) :=
  cstr_append_zero (fun b hb => h b (List.mem_of_mem_take hb)) _

/-!
## The digits
-/

theorem text_append (first second : List Char) :
    text (first ++ second) = text first ++ text second :=
  List.map_append

theorem text_digitChar {d : Nat} (h : d < 10) :
    text [Nat.digitChar d] = [UInt8.ofNat (48 + d)] := by
  interval_cases d <;> rfl

theorem isDigit_digit {d : Nat} (h : d < 10) :
    isDigit (UInt8.ofNat (48 + d)) = true ∧
      (UInt8.ofNat (48 + d)).toNat - 48 = d := by
  interval_cases d <;> decide

theorem decimal_of_lt {n : Nat} (h : n < 10) :
    decimal n = [UInt8.ofNat (48 + n)] := by
  rw [decimal, Nat.toDigits_of_lt_base h, text_digitChar h]

theorem decimal_of_le {n : Nat} (h : 10 ≤ n) :
    decimal n = decimal (n / 10) ++ [UInt8.ofNat (48 + n % 10)] := by
  rw [decimal, Nat.toDigits_of_base_le (by decide) h, text_append,
    text_digitChar (Nat.mod_lt n (by decide)), decimal]

theorem decimal_length_le_iff {n k : Nat} (hk : 0 < k) :
    (decimal n).length ≤ k <-> n < 10 ^ k := by
  rw [decimal, text, List.length_map]
  exact Nat.length_toDigits_le_iff (by decide) hk

theorem isDigit_decimal {n : Nat} {b : UInt8} (h : b ∈ decimal n) :
    isDigit b = true := by
  induction n using Nat.strongRecOn with
  | ind n ih =>
      cases Nat.lt_or_ge n 10 with
      | inl hlt =>
          rw [decimal_of_lt hlt] at h
          rw [List.mem_singleton.mp h]
          exact (isDigit_digit hlt).left
      | inr hle =>
          rw [decimal_of_le hle] at h
          rcases List.mem_append.mp h with h | h
          · exact ih (n / 10) (Nat.div_lt_self (by lia) (by decide)) h
          · rw [List.mem_singleton.mp h]
            exact (isDigit_digit (Nat.mod_lt n (by decide))).left

/-!
## The value of a row of digits
-/

theorem digitsValue_append (digits : Bytes) (b : UInt8) :
    digitsValue (digits ++ [b]) = 10 * digitsValue digits + (b.toNat - 48) := by
  rw [digitsValue, List.foldl_append]
  rfl

@[simp] theorem digitsValue_decimal (n : Nat) : digitsValue (decimal n) = n := by
  induction n using Nat.strongRecOn with
  | ind n ih =>
      cases Nat.lt_or_ge n 10 with
      | inl hlt =>
          rw [decimal_of_lt hlt]
          show 10 * 0 + ((UInt8.ofNat (48 + n)).toNat - 48) = n
          rw [(isDigit_digit hlt).right]
          lia
      | inr hle =>
          rw [decimal_of_le hle, digitsValue_append,
            ih (n / 10) (Nat.div_lt_self (by lia) (by decide)),
            (isDigit_digit (Nat.mod_lt n (by decide))).right]
          lia

theorem digitsValue_zeros (k : Nat) (digits : Bytes) :
    digitsValue (List.replicate k 48 ++ digits) = digitsValue digits := by
  induction k with
  | zero => rfl
  | succ k ih => exact ih

theorem NoNul.of_digits {digits : Bytes}
    (h : forall b, b ∈ digits -> isDigit b = true) : NoNul digits := by
  intro b hb hzero
  have hdigit := h b hb
  rw [hzero] at hdigit
  cases hdigit

theorem atoi_digits {digits : Bytes} (hne : digits ≠ [])
    (h : forall b, b ∈ digits -> isDigit b = true)
    (hvalue : digitsValue digits < 2 ^ 31) :
    atoi digits = digitsValue digits := by
  have hconvert : wrapInt (clampLong (digitsValue digits)) = digitsValue digits := by
    unfold wrapInt clampLong
    lia
  cases digits with
  | nil => exact absurd rfl hne
  | cons b rest =>
      have hb : isDigit b = true := h b List.mem_cons_self
      have hspace : isSpace b = false := by
        simp only [isDigit, isSpace, Bool.and_eq_true, decide_eq_true_eq,
          Bool.or_eq_false_iff, decide_eq_false_iff_not,
          UInt8.le_iff_toNat_le, ← UInt8.toNat_inj] at hb ⊢
        simp at hb ⊢
        lia
      have hsign : b ≠ 45 ∧ b ≠ 43 := by
        constructor
        · intro heq
          rw [heq] at hb
          cases hb
        · intro heq
          rw [heq] at hb
          cases hb
      have htake : (b :: rest).takeWhile isDigit = b :: rest :=
        List.takeWhile_eq_self_iff.mpr h
      rw [atoi, cstr_of_noNul (NoNul.of_digits h), List.dropWhile_cons,
        if_neg (by rw [hspace]; decide)]
      simp only [if_neg hsign.left, if_neg hsign.right, htake, hconvert]

end Foundation
end UnixPrograms
