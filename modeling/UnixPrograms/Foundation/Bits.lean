import Mathlib.Data.Nat.Digits.Lemmas

/-!
# Rows of bits

A number as a row of bits of fixed length, the least significant one first,
and a row of such rows as one stream of bits.
-/

namespace UnixPrograms
namespace Foundation

def bitsOf : Nat -> Nat -> List Nat
  | 0, _ => []
  | count + 1, num => num % 2 :: bitsOf count (num / 2)

@[simp] theorem bitsOf_length (count num : Nat) :
    (bitsOf count num).length = count := by
  induction count generalizing num with
  | zero => rfl
  | succ count ih => rw [bitsOf, List.length_cons, ih]

theorem lt_of_mem_bitsOf {count num bit : Nat} (h : bit ∈ bitsOf count num) :
    bit < 2 := by
  induction count generalizing num with
  | zero => cases h
  | succ count ih =>
      rcases List.mem_cons.mp h with heq | hmem
      · rw [heq]
        exact Nat.mod_lt num (by decide)
      · exact ih hmem

theorem ofDigits_bitsOf (count num : Nat) :
    Nat.ofDigits 2 (bitsOf count num) = num % 2 ^ count := by
  induction count generalizing num with
  | zero => rw [bitsOf, Nat.ofDigits_nil, Nat.pow_zero, Nat.mod_one]
  | succ count ih =>
      rw [bitsOf, Nat.ofDigits_cons, ih, Nat.pow_succ, Nat.mul_comm (2 ^ count),
        Nat.mod_mul]

theorem bitsOf_congr {count num num' : Nat}
    (h : num % 2 ^ count = num' % 2 ^ count) :
    bitsOf count num = bitsOf count num' := by
  induction count generalizing num num' with
  | zero => rfl
  | succ count ih =>
      rw [Nat.pow_succ, Nat.mul_comm, Nat.mod_mul, Nat.mod_mul] at h
      have hbit : num % 2 = num' % 2 := by
        lia
      have hrest : num / 2 % 2 ^ count = num' / 2 % 2 ^ count := by
        lia
      rw [bitsOf, bitsOf, hbit, ih hrest]

theorem bitsOf_ofDigits {bits : List Nat} (h : forall bit, bit ∈ bits -> bit < 2) :
    bitsOf bits.length (Nat.ofDigits 2 bits) = bits := by
  induction bits with
  | nil => rfl
  | cons bit bits ih =>
      have hbit := h bit List.mem_cons_self
      have hrest := ih (fun b hb => h b (List.mem_cons_of_mem bit hb))
      rw [List.length_cons, bitsOf, Nat.ofDigits_cons]
      have hmod : (bit + 2 * Nat.ofDigits 2 bits) % 2 = bit := by
        lia
      have hdiv : (bit + 2 * Nat.ofDigits 2 bits) / 2 = Nat.ofDigits 2 bits := by
        lia
      rw [hmod, hdiv, hrest]

/-!
## Streams
-/

def bitStream (count : Nat) (nums : List Nat) : List Nat :=
  nums.flatMap (bitsOf count)

theorem bitStream_append (count : Nat) (first second : List Nat) :
    bitStream count (first ++ second) =
      bitStream count first ++ bitStream count second :=
  List.flatMap_append

theorem bitStream_length (count : Nat) (nums : List Nat) :
    (bitStream count nums).length = count * nums.length := by
  induction nums with
  | nil => rfl
  | cons num nums ih =>
      have hcons : bitStream count (num :: nums) =
          bitsOf count num ++ bitStream count nums := rfl
      rw [hcons, List.length_append, bitsOf_length, ih, List.length_cons,
        Nat.mul_succ, Nat.add_comm]

theorem bitStream_take (count n : Nat) (nums : List Nat) :
    (bitStream count nums).take (count * n) =
      bitStream count (nums.take n) := by
  have hsplit : bitStream count nums =
      bitStream count (nums.take n) ++ bitStream count (nums.drop n) := by
    rw [← bitStream_append, List.take_append_drop]
  by_cases hle : n ≤ nums.length
  · have hlength : (bitStream count (nums.take n)).length = count * n := by
      rw [bitStream_length, List.length_take_of_le hle]
    rw [hsplit, ← hlength, List.take_left]
  · have hall : nums.length ≤ n := by
      lia
    rw [List.take_of_length_le hall, List.take_of_length_le]
    rw [bitStream_length]
    exact Nat.mul_le_mul_left count hall

theorem bitStream_injective {count : Nat} (hcount : 0 < count)
    {nums nums' : List Nat}
    (hnums : forall num, num ∈ nums -> num < 2 ^ count)
    (hnums' : forall num, num ∈ nums' -> num < 2 ^ count)
    (h : bitStream count nums = bitStream count nums') : nums = nums' := by
  induction nums generalizing nums' with
  | nil =>
      have hlength := congrArg List.length h
      rw [bitStream_length, bitStream_length, List.length_nil, Nat.mul_zero] at hlength
      rcases Nat.mul_eq_zero.mp hlength.symm with hzero | hzero
      · lia
      · exact (List.length_eq_zero_iff.mp hzero).symm
  | cons num nums ih =>
      cases nums' with
      | nil =>
          have hlength := congrArg List.length h
          rw [bitStream_length, bitStream_length, List.length_nil,
            Nat.mul_zero] at hlength
          rcases Nat.mul_eq_zero.mp hlength with hzero | hzero
          · lia
          · cases hzero
      | cons num' nums' =>
          have hsplit : bitsOf count num ++ bitStream count nums =
              bitsOf count num' ++ bitStream count nums' := h
          rcases List.append_inj hsplit (by simp) with ⟨hbits, hrest⟩
          have hvalue := congrArg (Nat.ofDigits 2) hbits
          rw [ofDigits_bitsOf, ofDigits_bitsOf,
            Nat.mod_eq_of_lt (hnums num List.mem_cons_self),
            Nat.mod_eq_of_lt (hnums' num' List.mem_cons_self)] at hvalue
          rw [hvalue, ih (fun n hn => hnums n (List.mem_cons_of_mem num hn))
            (fun n hn => hnums' n (List.mem_cons_of_mem num' hn)) hrest]

theorem bitStream_beginning {count : Nat} (hcount : 0 < count)
    {nums nums' : List Nat}
    (hnums : forall num, num ∈ nums -> num < 2 ^ count)
    (hnums' : forall num, num ∈ nums' -> num < 2 ^ count)
    (h : bitStream count nums <+: bitStream count nums') :
    nums = nums'.take nums.length := by
  have htake := List.prefix_iff_eq_take.mp h
  rw [bitStream_length, bitStream_take] at htake
  apply bitStream_injective hcount hnums _ htake
  exact fun num hnum => hnums' num (List.mem_of_mem_take hnum)

end Foundation
end UnixPrograms
