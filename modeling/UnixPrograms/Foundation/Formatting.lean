import UnixPrograms.Foundation.Accesses
import UnixPrograms.Foundation.Decimal

/-!
# Formatting into an array

`snprintf` and `vsnprintf` with what they return, and a string that grows in an
array of zeros.
-/

namespace UnixPrograms
namespace Foundation

def INT_MAX : Nat := 2147483647

def toSizeT (n : Int) : Nat :=
  (n % 2 ^ 64).toNat

def signedDecimal (n : Int) : Bytes :=
  if n < 0 then 45 :: decimal n.natAbs else decimal n.natAbs

/-- `snprintf` and `vsnprintf` of a formatted text to an array, of which they
may store the first `n` bytes.  They return the length of the whole text, and
fail if it is no `int`; `left` is what they have stored then. -/
def vsnprintf (dst left s : Bytes) (n : Nat) : Int × Bytes :=
  if s.length ≤ INT_MAX then
    (s.length, if n = 0 then dst else snprintf dst s n)
  else
    (-1, left.take n ++ dst.drop (left.take n).length)

def vsnprintfCount (s : Bytes) (n : Nat) : Nat :=
  if s.length ≤ INT_MAX then min n (s.length + 1) else n

def padded (size : Nat) (s : Bytes) : Bytes :=
  s ++ zeros (size - s.length)

/-!
## Numerals
-/

theorem noNul_decimal (n : Nat) : NoNul (decimal n) :=
  NoNul.of_digits (fun _ => isDigit_decimal)

theorem noNul_signedDecimal (n : Int) : NoNul (signedDecimal n) := by
  unfold signedDecimal
  split
  · exact NoNul.cons (by decide) (noNul_decimal n.natAbs)
  · exact noNul_decimal n.natAbs

theorem signedDecimal_length (n : Int32) :
    (signedDecimal n.toInt).length ≤ 11 := by
  have hle := n.le_toInt
  have hlt := n.toInt_lt
  have hdigits : (decimal n.toInt.natAbs).length ≤ 10 := by
    rw [decimal_length_le_iff (by decide)]
    lia
  unfold signedDecimal
  split
  · rw [List.length_cons]
    lia
  · lia

/-!
## Growing strings
-/

section Padded

variable {size : Nat} {s : Bytes}

theorem zeros_succ (n : Nat) : zeros (n + 1) = 0 :: zeros n := rfl

theorem padded_nil (size : Nat) : padded size [] = zeros size := rfl

theorem mem_padded (h : s.length < size) : 0 ∈ padded size s := by
  apply List.mem_append_right
  rw [zeros, List.mem_replicate]
  constructor
  · lia
  · rfl

theorem cstr_padded (hs : NoNul s) : cstr (padded size s) = s := by
  rw [padded, cstr_append_zeros, cstr_of_noNul hs]

theorem strlen_padded (hs : NoNul s) : strlen (padded size s) = s.length :=
  congrArg List.length (cstr_padded hs)

theorem padded_snprintf {t : Bytes} {n : Nat} (hn : 0 < n)
    (hroom : s.length + n ≤ size) :
    (padded size s).take s.length ++
        snprintf ((padded size s).drop s.length) t n =
      padded size (s ++ t.take (n - 1)) := by
  have hlength : (t.take (n - 1)).length ≤ n - 1 := List.length_take_le _ _
  have hbehind : size - (s ++ t.take (n - 1)).length =
      size - s.length - ((t.take (n - 1)).length + 1) + 1 := by
    rw [List.length_append]
    lia
  have htake : (padded size s).take s.length = s := List.take_left
  have hdrop : (padded size s).drop s.length = zeros (size - s.length) :=
    List.drop_left
  have hrest : (zeros (size - s.length)).drop ((t.take (n - 1)).length + 1) =
      zeros (size - s.length - ((t.take (n - 1)).length + 1)) :=
    List.drop_replicate
  calc
    (padded size s).take s.length ++
        snprintf ((padded size s).drop s.length) t n
      = s ++ (t.take (n - 1) ++
          0 :: (zeros (size - s.length)).drop ((t.take (n - 1)).length + 1)) := by
        rw [htake, hdrop]
        rfl
    _ = s ++ t.take (n - 1) ++
          zeros (size - s.length - ((t.take (n - 1)).length + 1) + 1) := by
        rw [hrest, zeros_succ, List.append_assoc]
    _ = padded size (s ++ t.take (n - 1)) := by
        rw [padded, hbehind]

theorem padded_set (b : UInt8) (h : s.length < size) :
    (padded size s).set s.length b = padded size (s ++ [b]) := by
  have hsize : size - s.length = size - (s ++ [b]).length + 1 := by
    rw [List.length_append, List.length_singleton]
    lia
  rw [padded, padded, hsize, zeros_succ, List.set_append_right _ _ (le_refl _),
    Nat.sub_self, List.append_assoc]
  rfl

end Padded

end Foundation
end UnixPrograms
