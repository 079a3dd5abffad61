import UnixPrograms.Foundation.Strtok

/-!
# Tokens in memory

`strtok_r` as it works on a block of memory: tokens are pointers into the
block, and a terminator is stored behind each.  When the string ends with the
token, the state is left at its terminator or set to `NULL`; which of them is
not specified.
-/

namespace UnixPrograms
namespace Foundation

/-- What the state becomes at the end of the string. -/
inductive Ending where
  | terminator
  | null
deriving DecidableEq

def Ending.save : Ending -> Nat -> Option Nat
  | terminator, stop => some stop
  | null, _ => none

def strspn (delim : UInt8) (buf : Bytes) : Nat :=
  ((cstr buf).takeWhile (fun b => b = delim)).length

def strcspn (delim : UInt8) (buf : Bytes) : Nat :=
  ((cstr buf).takeWhile (fun b => b ≠ delim)).length

/-- The token, the block and the state; `s` is looked at first. -/
def strtokR (ending : Ending) (delim : UInt8) (block : Bytes)
    (s state : Option Nat) : Option Nat × Bytes × Option Nat :=
  match s.or state with
  | none => (none, block, none)
  | some s =>
      let start := s + strspn delim (block.drop s)
      if strlen (block.drop start) = 0 then (none, block, ending.save start)
      else
        let stop := start + strcspn delim (block.drop start)
        if strlen (block.drop stop) = 0 then
          (some start, block, ending.save stop)
        else (some start, block.set stop 0, some (stop + 1))

def stringOf (block : Bytes) (p : Nat) : Bytes :=
  cstr (block.drop p)

/-!
## Strings in a block
-/

structure StringAt (block : Bytes) (p : Nat) (str : Bytes) : Prop where
  noNul : NoNul str
  ended : exists rest, block.drop p = str ++ 0 :: rest

theorem cstr_split {buf : Bytes} (h : 0 ∈ buf) :
    exists rest, buf = cstr buf ++ 0 :: rest := by
  have hsplit := @List.takeWhile_append_dropWhile _ (fun b => decide (b ≠ 0)) buf
  cases hrest : buf.dropWhile (fun b => b ≠ 0) with
  | nil =>
      rw [hrest, List.append_nil] at hsplit
      have hsame : cstr buf = buf := hsplit
      exact absurd rfl (noNul_cstr buf 0 (hsame.symm ▸ h))
  | cons b rest =>
      have hb : b = 0 := by
        have hno := List.head?_dropWhile_not (fun b => decide (b ≠ 0)) buf
        rw [hrest] at hno
        simpa using hno
      rw [hrest, hb] at hsplit
      exact ⟨rest, hsplit.symm⟩

theorem stringAt_cstr {block : Bytes} {p : Nat} (h : 0 ∈ block.drop p) :
    StringAt block p (stringOf block p) :=
  ⟨noNul_cstr _, cstr_split h⟩

section Strings

variable {block str : Bytes} {p : Nat}

theorem StringAt.stringOf_eq (h : StringAt block p str) :
    stringOf block p = str := by
  rcases h.ended with ⟨rest, hrest⟩
  rw [stringOf, hrest, cstr_append_zero h.noNul]

theorem StringAt.strlen_eq (h : StringAt block p str) :
    strlen (block.drop p) = str.length :=
  congrArg List.length h.stringOf_eq

theorem StringAt.mem_drop (h : StringAt block p str) : 0 ∈ block.drop p := by
  rcases h.ended with ⟨rest, hrest⟩
  rw [hrest]
  exact List.mem_append_right _ List.mem_cons_self

theorem StringAt.drop (h : StringAt block p str) {k : Nat}
    (hk : k ≤ str.length) : StringAt block (p + k) (str.drop k) := by
  rcases h.ended with ⟨rest, hrest⟩
  refine ⟨fun b hb => h.noNul b (List.mem_of_mem_drop hb), rest, ?_⟩
  rw [← List.drop_drop, hrest, List.drop_append_of_le_length hk]

theorem StringAt.cut (h : StringAt block p str) {k : Nat}
    (hk : k < str.length) :
    StringAt (block.set (p + k) 0) p (str.take k) ∧
      StringAt (block.set (p + k) 0) (p + k + 1) (str.drop (k + 1)) := by
  rcases h.ended with ⟨rest, hrest⟩
  have hset : (block.set (p + k) 0).drop p =
      str.take k ++ 0 :: (str.drop (k + 1) ++ 0 :: rest) := by
    rw [List.drop_set, if_neg (by lia), hrest, Nat.add_sub_cancel_left,
      List.set_append_left _ _ hk, List.set_eq_take_append_cons_drop, if_pos hk,
      List.append_assoc]
    rfl
  constructor
  · exact ⟨fun b hb => h.noNul b (List.mem_of_mem_take hb), _, hset⟩
  · refine ⟨fun b hb => h.noNul b (List.mem_of_mem_drop hb), rest, ?_⟩
    have htake : (str.take k).length = k :=
      List.length_take_of_le (Nat.le_of_lt hk)
    rw [Nat.add_assoc, ← List.drop_drop, hset, ← List.drop_drop,
      List.drop_left' htake]
    rfl

theorem StringAt.set (h : StringAt block p str) {i : Nat} (b : UInt8)
    (hi : p + str.length < i) : StringAt (block.set i b) p str := by
  rcases h.ended with ⟨rest, hrest⟩
  refine ⟨h.noNul, rest.set (i - p - str.length - 1) b, ?_⟩
  have hindex : i - p - str.length = i - p - str.length - 1 + 1 := by lia
  rw [List.drop_set, if_neg (by lia), hrest, List.set_append_right _ _ (by lia)]
  conv => lhs; rw [hindex, List.set_cons_succ]

end Strings

/-!
## One call
-/

def Remains (block : Bytes) (low : Nat) (state : Option Nat) (rest : Bytes) :
    Prop :=
  match state with
  | none => rest = []
  | some p => low ≤ p ∧ StringAt block p rest

/-- What a call leaves that has found the token in a block in which the string
began at `p`. -/
structure Taken (block : Bytes) (p : Nat) (block' : Bytes) (start : Nat)
    (token : Bytes) (state : Option Nat) (rest : Bytes) : Prop where
  behind : p ≤ start
  string : StringAt block' start token
  remains : Remains block' (start + token.length) state rest
  /-- The strings in front of `p` stay. -/
  keeps : forall q s, StringAt block q s -> q + s.length ≤ p ->
    StringAt block' q s
  size : block'.length = block.length

theorem drop_takeWhile (f : UInt8 -> Bool) (s : Bytes) :
    s.drop (s.takeWhile f).length = s.dropWhile f := by
  have hdrop := @List.drop_left _ (s.takeWhile f) (s.dropWhile f)
  rwa [List.takeWhile_append_dropWhile] at hdrop

theorem take_takeWhile (f : UInt8 -> Bool) (s : Bytes) :
    s.take (s.takeWhile f).length = s.takeWhile f :=
  (List.prefix_iff_eq_take.mp (List.takeWhile_prefix f)).symm

section Call

variable {ending : Ending} {delim : UInt8} {block str : Bytes} {low : Nat}
  {state : Option Nat}

theorem strspn_eq {p : Nat} (h : StringAt block p str) :
    strspn delim (block.drop p) =
      (str.takeWhile (fun b => b = delim)).length := by
  rw [strspn, show cstr (block.drop p) = str from h.stringOf_eq]

theorem strcspn_eq {p : Nat} (h : StringAt block p str) :
    strcspn delim (block.drop p) =
      (str.takeWhile (fun b => b ≠ delim)).length := by
  rw [strcspn, show cstr (block.drop p) = str from h.stringOf_eq]

theorem StringAt.skip {p : Nat} (h : StringAt block p str) :
    StringAt block (p + strspn delim (block.drop p))
      (str.dropWhile (fun b => b = delim)) := by
  have hskip := h.drop
    (List.takeWhile_prefix (fun b => decide (b = delim))).length_le
  rw [drop_takeWhile] at hskip
  rw [strspn_eq h]
  exact hskip

theorem strtokR_none {p : Nat} (h : StringAt block p str)
    (hnext : strtok delim str = none) :
    exists state', strtokR ending delim block (some p) state =
      (none, block, state') := by
  have hskip : StringAt block (p + strspn delim (block.drop p))
      (str.dropWhile (fun b => b = delim)) := h.skip
  simp only [strtok] at hnext
  split at hnext
  case isTrue hnil =>
    have hempty : strlen (block.drop (p + strspn delim (block.drop p))) = 0 := by
      rw [hskip.strlen_eq, hnil]
      rfl
    refine ⟨ending.save (p + strspn delim (block.drop p)), ?_⟩
    simp only [strtokR, Option.some_or, hempty, if_pos]
  case isFalse _ => cases hnext

theorem strtokR_some {p : Nat} {token rest : Bytes} (h : StringAt block p str)
    (hnext : strtok delim str = some (token, rest)) :
    exists block' start state',
      strtokR ending delim block (some p) state = (some start, block', state') ∧
        Taken block p block' start token state' rest := by
  have hskip : StringAt block (p + strspn delim (block.drop p))
      (str.dropWhile (fun b => b = delim)) := h.skip
  have hne := (strtok_eq_some hnext).left
  simp only [strtok] at hnext
  split at hnext
  case isTrue _ => cases hnext
  case isFalse hstart =>
    injection hnext with hnext
    injection hnext with htoken hrest
    generalize hfirst : str.dropWhile (fun b => b = delim) = first at *
    generalize hp : p + strspn delim (block.drop p) = start at *
    have hspan : strcspn delim (block.drop start) = token.length := by
      rw [strcspn_eq hskip, htoken]
    have hle : token.length ≤ first.length := by
      rw [← htoken]
      exact (List.takeWhile_prefix _).length_le
    have htake : first.take token.length = token := by
      rw [← htoken]
      exact take_takeWhile _ first
    have hdrop : first.drop (token.length + 1) = rest := by
      rw [← hrest, ← drop_takeWhile, htoken, List.drop_drop]
    have hnonempty : ¬ strlen (block.drop start) = 0 := by
      rw [hskip.strlen_eq, List.length_eq_zero_iff]
      exact hstart
    have hbehind : p ≤ start := by
      rw [← hp]
      exact Nat.le_add_right _ _
    have hpos := List.length_pos_iff.mpr hne
    by_cases hend : token.length = first.length
    · -- the string ends with the token
      have hwhole : token = first := by
        rw [← htake, hend, List.take_length]
      have hnil : rest = [] := by
        rw [← hdrop, hend]
        exact List.drop_eq_nil_of_le (Nat.le_succ _)
      have hempty : StringAt block (start + token.length) [] := by
        have hlast := hskip.drop (le_refl first.length)
        rw [List.drop_length, ← hend] at hlast
        exact hlast
      have hstop : strlen (block.drop (start + token.length)) = 0 :=
        hempty.strlen_eq
      refine ⟨block, start, ending.save (start + token.length), ?_, hbehind,
        hwhole ▸ hskip, ?_, fun _ _ h _ => h, rfl⟩
      · simp only [strtokR, Option.some_or, hp, if_neg hnonempty, hspan, hstop,
          if_pos]
      · rw [hnil]
        cases ending with
        | terminator => exact ⟨le_refl _, hempty⟩
        | null => rfl
    · have hlt : token.length < first.length := Nat.lt_of_le_of_ne hle hend
      have hstop : ¬ strlen (block.drop (start + token.length)) = 0 := by
        rw [(hskip.drop hle).strlen_eq, List.length_drop]
        lia
      rcases hskip.cut hlt with ⟨hfirstPart, hsecondPart⟩
      rw [htake] at hfirstPart
      rw [hdrop] at hsecondPart
      refine ⟨block.set (start + token.length) 0, start,
        some (start + token.length + 1), ?_, hbehind, hfirstPart,
        ⟨Nat.le_succ _, hsecondPart⟩, ?_, List.length_set⟩
      · simp only [strtokR, Option.some_or, hp, if_neg hnonempty, hspan,
          if_neg hstop]
      · intro q s hstring hbefore
        exact hstring.set 0 (by lia)

end Call

end Foundation
end UnixPrograms
