import Mathlib.Algebra.Order.Ring.Int
import Mathlib.Data.List.TakeWhile

/-!
# Strings in byte buffers

A buffer is a list of bytes, and the string in it ends before the first zero
byte.  The functions are the ones of the C library, on buffers in which they
meet a zero byte.
-/

namespace UnixPrograms
namespace Foundation

abbrev Bytes := List UInt8

def text (chars : List Char) : Bytes :=
  chars.map (fun c => UInt8.ofNat c.toNat)

def cstr (buf : Bytes) : Bytes :=
  buf.takeWhile (fun b => b ≠ 0)

def strlen (buf : Bytes) : Nat :=
  (cstr buf).length

/-- `memset(buf, 0, n)` on an array of `n` bytes. -/
def zeros (n : Nat) : Bytes :=
  List.replicate n 0

/-- `strcpy`: the string of `src` and its terminator over the beginning of
`dst`. -/
def strcpy (dst src : Bytes) : Bytes :=
  cstr src ++ 0 :: dst.drop (strlen src + 1)

/-- `strncpy`: at most `n` bytes of the string, padded with zeros to `n`. -/
def strncpy (dst src : Bytes) (n : Nat) : Bytes :=
  (cstr src).take n ++ zeros (n - strlen src) ++ dst.drop n

/-- A prefix test by `strncmp` with the length of `substr`. -/
def startsWith (str substr : Bytes) : Bool :=
  substr.isPrefixOf (cstr str)

def NoNul (s : Bytes) : Prop :=
  forall b, b ∈ s -> b ≠ 0

instance (s : Bytes) : Decidable (NoNul s) :=
  List.decidableBAll (fun b => b ≠ 0) s

theorem NoNul.cons {b : UInt8} {s : Bytes} (hb : b ≠ 0) (hs : NoNul s) :
    NoNul (b :: s) := by
  intro c hc
  rcases List.mem_cons.mp hc with h | h
  · rw [h]
    exact hb
  · exact hs c h

theorem NoNul.append {first second : Bytes} (hfirst : NoNul first)
    (hsecond : NoNul second) : NoNul (first ++ second) := by
  intro b hb
  rcases List.mem_append.mp hb with hb | hb
  · exact hfirst b hb
  · exact hsecond b hb

theorem noNul_cstr (buf : Bytes) : NoNul (cstr buf) := by
  intro b hb
  simpa using List.mem_takeWhile_imp hb

theorem cstr_append_zero {s : Bytes} (h : NoNul s) (rest : Bytes) :
    cstr (s ++ 0 :: rest) = s := by
  induction s with
  | nil => rfl
  | cons b s ih =>
      have hb : b ≠ 0 := h b List.mem_cons_self
      have hs : NoNul s := fun c hc => h c (List.mem_cons_of_mem b hc)
      change (b :: (s ++ 0 :: rest)).takeWhile (fun b => b ≠ 0) = b :: s
      rw [List.takeWhile_cons, if_pos (by simpa using hb)]
      exact congrArg (List.cons b) (ih hs)

theorem cstr_of_noNul {s : Bytes} (h : NoNul s) : cstr s = s := by
  unfold cstr
  rw [List.takeWhile_eq_self_iff]
  intro b hb
  simpa using h b hb

theorem cstr_append_of_mem {buf : Bytes} (h : 0 ∈ buf) (rest : Bytes) :
    cstr (buf ++ rest) = cstr buf := by
  induction buf with
  | nil => cases h
  | cons b buf ih =>
      by_cases hb : b = 0
      · rw [hb]
        rfl
      · have hmem : 0 ∈ buf := by
          rcases List.mem_cons.mp h with heq | hmem
          · exact absurd heq.symm hb
          · exact hmem
        have hcons : forall tail : Bytes, cstr (b :: tail) = b :: cstr tail := by
          intro tail
          simp [cstr, hb]
        rw [List.cons_append, hcons, hcons, ih hmem]

theorem cstr_append_zeros (s : Bytes) (n : Nat) :
    cstr (s ++ zeros n) = cstr s := by
  induction s with
  | nil =>
      cases n with
      | zero => rfl
      | succ n => rfl
  | cons b s ih =>
      by_cases hb : b = 0
      · rw [hb]
        rfl
      · have hcons : forall tail : Bytes, cstr (b :: tail) = b :: cstr tail := by
          intro tail
          simp [cstr, hb]
        rw [List.cons_append, hcons, hcons, ih]

theorem take_strlen (buf : Bytes) : buf.take (strlen buf) = cstr buf :=
  List.prefix_iff_eq_take.mp (List.takeWhile_prefix _) |>.symm

theorem cstr_drop {buf : Bytes} {n : Nat} (h : n ≤ strlen buf) :
    cstr (buf.drop n) = (cstr buf).drop n := by
  induction n generalizing buf with
  | zero => rfl
  | succ n ih =>
      cases buf with
      | nil => cases h
      | cons b buf =>
          by_cases hb : b = 0
          · rw [hb] at h
            cases h
          · have hcons : cstr (b :: buf) = b :: cstr buf := by
              simp [cstr, hb]
            rw [strlen, hcons] at h
            rw [hcons, List.drop_succ_cons, List.drop_succ_cons]
            exact ih (Nat.le_of_succ_le_succ h)

@[simp] theorem cstr_cstr (buf : Bytes) : cstr (cstr buf) = cstr buf :=
  cstr_of_noNul (noNul_cstr buf)

@[simp] theorem cstr_strcpy (dst src : Bytes) :
    cstr (strcpy dst src) = cstr src :=
  cstr_append_zero (noNul_cstr src) _

/-!
## Decimal numbers
-/

def isSpace (b : UInt8) : Bool :=
  b = 32 || (9 ≤ b && b ≤ 13)

def isDigit (b : UInt8) : Bool :=
  48 ≤ b && b ≤ 57

def digitsValue (digits : Bytes) : Nat :=
  digits.foldl (fun value b => 10 * value + (b.toNat - 48)) 0

/-- The conversion of a `long` to an `int`. -/
def wrapInt (n : Int) : Int :=
  (n + 2 ^ 31) % 2 ^ 32 - 2 ^ 31

/-- `strtol` saturates at the limits of `long`. -/
def clampLong (n : Int) : Int :=
  max (-2 ^ 63) (min (2 ^ 63 - 1) n)

/-- `atoi`, as `(int)strtol(nptr, NULL, 10)`. -/
def atoi (str : Bytes) : Int :=
  match (cstr str).dropWhile isSpace with
  | [] => 0
  | sign :: rest =>
      if sign = 45 then
        wrapInt (clampLong (-(digitsValue (rest.takeWhile isDigit) : Int)))
      else if sign = 43 then
        wrapInt (clampLong (digitsValue (rest.takeWhile isDigit)))
      else
        wrapInt (clampLong (digitsValue ((sign :: rest).takeWhile isDigit)))

example : atoi (text ['0', '0', '4', '2', 'x']) = 42 := by decide

end Foundation
end UnixPrograms
