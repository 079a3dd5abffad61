import UnixPrograms.BizzBuzz.Rewriting

/-!
# The flags of a token

What `last_is_5`, `sum`, `check_is_num`, `negative` and `prev_off` say about
the symbols of the current token.
-/

namespace UnixPrograms
namespace BizzBuzz

open Foundation

/-- The flags for the digits read so far: -3 is the sum of no digits. -/
structure Digits (v : Vars) (digits : Bytes) : Prop where
  lower : -3 ≤ v.sum
  upper : v.sum ≤ 2
  modThree : 3 ∣ v.sum - (digitsValue digits : Int)
  none : v.sum = -3 <-> digits = []
  last : v.lastIs5 = true <->
    digits ≠ [] ∧ 5 ∣ (digitsValue digits : Int)

structure Token (v : Vars) (start : Nat) (run : Bytes) : Prop where
  negative : v.negative = true <-> run.head? = some 45
  prevOff : v.prevOff + (body run).length = start + run.length
  check : v.checkIsNum = (body run).all isDigit
  digits : v.checkIsNum = true -> Digits v (body run)

theorem tmod_three (x : Int) :
    -2 ≤ x.tmod 3 ∧ x.tmod 3 ≤ 2 ∧ 3 ∣ x - x.tmod 3 := by
  have hsplit := Int.mul_tdiv_add_tmod x 3
  have hupper := Int.tmod_lt_of_pos x (by decide : (0 : Int) < 3)
  have hlower := Int.lt_tmod_of_pos x (by decide : (0 : Int) < 3)
  refine ⟨by lia, by lia, x.tdiv 3, ?_⟩
  lia

theorem isDigit_iff {b : UInt8} :
    isDigit b = true <-> 48 ≤ b.toNat ∧ b.toNat ≤ 57 := by
  rw [isDigit, Bool.and_eq_true, decide_eq_true_eq, decide_eq_true_eq,
    UInt8.le_iff_toNat_le, UInt8.le_iff_toNat_le]
  rfl

theorem charValue_digit {b : UInt8} (h : isDigit b = true) :
    charValue b - 48 = ((b.toNat - 48 : Nat) : Int) ∧ b.toNat - 48 ≤ 9 := by
  have hrange := isDigit_iff.mp h
  have hlt : b < 128 := by
    rw [UInt8.lt_iff_toNat_lt]
    change b.toNat < 128
    lia
  rw [charValue, if_pos hlt]
  lia

theorem charValue_other {b : UInt8} (h : isDigit b = false) :
    charValue b - 48 < 0 ∨ 9 < charValue b - 48 := by
  have hno : ¬ (48 ≤ b.toNat ∧ b.toNat ≤ 57) := by
    rw [← isDigit_iff, h]
    decide
  have hlt := b.toNat_lt
  rw [charValue]
  split
  · lia
  · lia

theorem Digits.append {v : Vars} {digits : Bytes} (h : Digits v digits)
    {b : UInt8} (hb : isDigit b = true) :
    Digits
      { v with
        lastIs5 := decide ((charValue b - 48).tmod 5 = 0)
        sum := (v.sum + (charValue b - 48)).tmod 3 }
      (digits ++ [b]) := by
  rcases charValue_digit hb with ⟨hvalue, hle⟩
  rcases tmod_three (v.sum + (charValue b - 48)) with ⟨hlower, hupper, hmod⟩
  have hmodThree := h.modThree
  have happend := digitsValue_append digits b
  rw [hvalue] at *
  constructor
  case lower => exact le_trans (by decide) hlower
  case upper => exact hupper
  case modThree =>
    change 3 ∣ (v.sum + ((b.toNat - 48 : Nat) : Int)).tmod 3 - _
    rw [happend]
    lia
  case none =>
    constructor
    · intro hsum
      change (v.sum + ((b.toNat - 48 : Nat) : Int)).tmod 3 = -3 at hsum
      lia
    · intro hnil
      cases List.append_eq_nil_iff.mp hnil |>.right
  case last =>
    rw [decide_eq_true_eq, happend,
      Int.tmod_eq_emod_of_nonneg (Int.natCast_nonneg _)]
    constructor
    · intro hfive
      exact ⟨by simp, by lia⟩
    · intro hdvd
      have hfive := hdvd.right
      lia

theorem body_grow {run : Bytes} {b : UInt8} (h : run = [] -> b ≠ 45) :
    body (run ++ [b]) = body run ++ [b] ∧
      ((run ++ [b]).head? = some 45 <-> run.head? = some 45) := by
  cases run with
  | nil => exact ⟨body_singleton (h rfl), by simp [h rfl]⟩
  | cons c run => exact ⟨body_append (by simp) b, by simp⟩

theorem Token.grow {v v' : Vars} {start : Nat} {run : Bytes} {b : UInt8}
    (h : Token v start run) (hgrow : run = [] -> b ≠ 45)
    (hnegative : v'.negative = v.negative) (hprevOff : v'.prevOff = v.prevOff)
    (hcheck : v'.checkIsNum = (v.checkIsNum && isDigit b))
    (hdigits : v'.checkIsNum = true -> Digits v' (body run ++ [b])) :
    Token v' start (run ++ [b]) := by
  rcases body_grow hgrow with ⟨hbody, hhead⟩
  constructor
  case negative => rw [hnegative, hhead, h.negative]
  case prevOff =>
    rw [hprevOff, hbody, List.length_append, List.length_append,
      ← Nat.add_assoc, h.prevOff, Nat.add_assoc]
  case check => rw [hcheck, hbody, List.all_append, h.check]; simp
  case digits =>
    rw [hbody]
    exact hdigits

theorem Token.sign {v : Vars} {start : Nat} (h : Token v start []) :
    Token { v with negative := true, prevOff := v.prevOff + 1 } start [45] := by
  have hbody : body [45] = [] := rfl
  constructor
  case negative => exact iff_of_true rfl rfl
  case prevOff =>
    rw [hbody]
    have hprevOff := h.prevOff
    exact congrArg Nat.succ hprevOff
  case check => exact h.check
  case digits =>
    intro hcheck
    have hdigits := h.digits hcheck
    exact ⟨hdigits.lower, hdigits.upper, hdigits.modThree, hdigits.none,
      hdigits.last⟩

theorem Token.inside {v : Vars} {start i : Nat} {run : Bytes}
    (h : Token v start run)
    (hstart : run = [] <->
      v.prevSymbol = 32 ∨ i = 0 ∨ v.prevSymbol = 10 ∨ v.prevSymbol = 9) :
    Token (insideToken i v) start (run ++ [v.temp]) := by
  by_cases hminus : v.temp = 45
  · have hno : isDigit 45 = false := rfl
    by_cases hnil : run = []
    · have hrun : run ++ [v.temp] = [45] := by
        rw [hnil, hminus]
        rfl
      rw [insideToken, if_pos hminus, if_pos (hstart.mp hnil), hrun]
      rw [hnil] at h
      exact h.sign
    · rw [insideToken, if_pos hminus, if_neg (fun hc => hnil (hstart.mpr hc))]
      refine h.grow (fun hc => absurd hc hnil) rfl rfl ?_ ?_
      · rw [hminus, hno, Bool.and_false]
      · intro hcheck
        cases hcheck
  · have hgrow : run = [] -> v.temp ≠ 45 := fun _ => hminus
    cases hdigit : isDigit v.temp with
    | false =>
        rw [insideToken, if_neg hminus, if_pos (charValue_other hdigit)]
        refine h.grow hgrow rfl rfl ?_ ?_
        · rw [hdigit, Bool.and_false]
        · intro hcheck
          cases hcheck
    | true =>
        have hrange := charValue_digit hdigit
        rw [insideToken, if_neg hminus, if_neg (by lia)]
        refine h.grow hgrow rfl rfl ?_ ?_
        · rw [hdigit, Bool.and_true]
        · intro hcheck
          exact (h.digits hcheck).append hdigit

theorem Token.empty {v : Vars} (hlast : v.lastIs5 = false) (hsum : v.sum = -3)
    (hcheck : v.checkIsNum = true) (hnegative : v.negative = false) :
    Token v v.prevOff [] := by
  constructor
  case negative => simp [hnegative]
  case prevOff => rfl
  case check => exact hcheck
  case digits =>
    intro _
    have hbody : body [] = [] := rfl
    have hvalue : digitsValue [] = 0 := rfl
    rw [hbody]
    constructor
    case lower => rw [hsum]
    case upper => rw [hsum]; decide
    case modThree => rw [hsum, hvalue]; decide
    case none => exact iff_of_true hsum rfl
    case last => simp [hlast]

theorem Token.congr {v v' : Vars} {start : Nat} {run : Bytes}
    (h : Token v start run) (hlast : v'.lastIs5 = v.lastIs5)
    (hsum : v'.sum = v.sum) (hprevOff : v'.prevOff = v.prevOff)
    (hcheck : v'.checkIsNum = v.checkIsNum)
    (hnegative : v'.negative = v.negative) : Token v' start run := by
  constructor
  case negative => rw [hnegative, h.negative]
  case prevOff => rw [hprevOff, h.prevOff]
  case check => rw [hcheck, h.check]
  case digits =>
    intro hnum
    have hdigits := h.digits (hcheck ▸ hnum)
    constructor
    case lower => rw [hsum]; exact hdigits.lower
    case upper => rw [hsum]; exact hdigits.upper
    case modThree => rw [hsum]; exact hdigits.modThree
    case none => rw [hsum]; exact hdigits.none
    case last => rw [hlast]; exact hdigits.last

/-!
## The verdict at the end of a token
-/

theorem Token.not_number {v : Vars} {start : Nat} {run : Bytes}
    (h : Token v start run) (hnumber : number run = none) :
    ¬ (v.lastIs5 = true ∧ v.checkIsNum = true) ∧
      ¬ (v.sum = 0 ∧ v.checkIsNum = true) := by
  cases hcheck : v.checkIsNum with
  | false => simp
  | true =>
      have hdigits := h.digits hcheck
      have hnil : body run = [] := by
        by_contra hbody
        rw [h.check] at hcheck
        rcases number_eq_some hbody hcheck with ⟨value, hvalue, _⟩
        rw [hnumber] at hvalue
        cases hvalue
      constructor
      · intro hlast
        exact (hdigits.last.mp hlast.left).left hnil
      · intro hsum
        have hnone := hdigits.none.mpr hnil
        rw [hsum.left] at hnone
        cases hnone

theorem Token.divisors {v : Vars} {start : Nat} {run : Bytes} {value : Int}
    (h : Token v start run) (hnumber : number run = some value) :
    v.checkIsNum = true ∧ (v.lastIs5 = true <-> 5 ∣ value) ∧
      (v.sum = 0 <-> 3 ∣ value) := by
  have hbody : body run ≠ [] := by
    intro hnil
    rw [number_eq_none (Or.inl hnil)] at hnumber
    cases hnumber
  have hcheck : v.checkIsNum = true := by
    rw [h.check]
    by_contra hno
    rw [number_eq_none (Or.inr (Bool.eq_false_iff.mpr hno))] at hnumber
    cases hnumber
  have hdigits := h.digits hcheck
  have hall : (body run).all isDigit = true := by
    rw [← h.check]
    exact hcheck
  rcases number_eq_some hbody hall with ⟨value', hvalue, hdvd⟩
  rw [hnumber] at hvalue
  cases hvalue
  refine ⟨hcheck, ?_, ?_⟩
  · rw [hdvd, hdigits.last]
    exact and_iff_right hbody
  · rw [hdvd]
    have hsum : v.sum ≠ -3 := fun heq => hbody (hdigits.none.mp heq)
    have hlower := hdigits.lower
    have hupper := hdigits.upper
    have hmod := hdigits.modThree
    lia

end BizzBuzz
end UnixPrograms
