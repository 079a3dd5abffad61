import UnixPrograms.Foundation.CString

/-!
# Tokens of a string

`strtok_r` with a single delimiter, on the string that its third argument
points to.  Its tokens are the nonempty segments between the delimiters.
-/

namespace UnixPrograms
namespace Foundation

/-- The next token, and the string that is left behind it. -/
def strtok (delim : UInt8) (str : Bytes) : Option (Bytes × Bytes) :=
  let start := str.dropWhile (fun b => b = delim)
  if start = [] then none
  else
    some
      (start.takeWhile (fun b => b ≠ delim),
        (start.dropWhile (fun b => b ≠ delim)).drop 1)

/-- At most `fuel` tokens, until `strtok_r` answers `NULL`. -/
def tokensWithin (delim : UInt8) : Nat -> Bytes -> List Bytes
  | 0, _ => []
  | fuel + 1, str =>
      match strtok delim str with
      | none => []
      | some (token, rest) => token :: tokensWithin delim fuel rest

def tokens (delim : UInt8) (str : Bytes) : List Bytes :=
  tokensWithin delim str.length str

theorem strtok_eq_some {delim : UInt8} {str token rest : Bytes}
    (h : strtok delim str = some (token, rest)) :
    token ≠ [] ∧ rest.length < str.length := by
  simp only [strtok] at h
  split at h
  case isTrue _ => cases h
  case isFalse hstart =>
    have hle := (List.dropWhile_suffix (fun b => decide (b = delim))
      (l := str)).length_le
    injection h with h
    injection h with htoken hrest
    cases hsplit : str.dropWhile (fun b => b = delim) with
    | nil => exact absurd hsplit hstart
    | cons b tail =>
        have hb : b ≠ delim := by
          have hhead := List.head_dropWhile_not
            (fun b => decide (b = delim)) hstart
          simp only [hsplit, List.head_cons] at hhead
          simpa using hhead
        rw [hsplit] at htoken hrest hle
        rw [List.takeWhile_cons, if_pos (by simpa using hb)] at htoken
        rw [List.dropWhile_cons, if_pos (by simpa using hb)] at hrest
        have hshort := (List.dropWhile_suffix (fun b => decide (b ≠ delim))
          (l := tail)).length_le
        constructor
        · rw [← htoken]
          exact List.cons_ne_nil b _
        · rw [← hrest, List.length_drop]
          simp only [List.length_cons] at hle
          lia

/-!
## Parts cut off the front
-/

section Parts

variable {alpha : Type}

/-- `within` lists the parts that `next` cuts off, at most `fuel` of them. -/
structure CutsOff (next : Bytes -> Option (alpha × Bytes))
    (within : Nat -> Bytes -> List alpha) : Prop where
  stop : forall s, within 0 s = []
  turn : forall fuel s, within (fuel + 1) s =
    (next s).elim [] (fun found => found.1 :: within fuel found.2)
  shorter : forall s part rest, next s = some (part, rest) ->
    rest.length < s.length

variable {next : Bytes -> Option (alpha × Bytes)}
  {within : Nat -> Bytes -> List alpha}

theorem CutsOff.nil (h : CutsOff next within) (fuel : Nat) :
    within fuel [] = [] := by
  cases fuel with
  | zero => exact h.stop []
  | succ fuel =>
      rw [h.turn]
      cases hnext : next [] with
      | none => rfl
      | some found =>
          have hshort := h.shorter [] found.1 found.2 hnext
          cases hshort

theorem CutsOff.congr (h : CutsOff next within) {fuel fuel' : Nat} {s : Bytes}
    (hfuel : s.length ≤ fuel) (hfuel' : s.length ≤ fuel') :
    within fuel s = within fuel' s := by
  induction fuel generalizing fuel' s with
  | zero =>
      have hnil : s = [] :=
        List.eq_nil_of_length_eq_zero (Nat.le_zero.mp hfuel)
      rw [hnil, h.nil, h.nil]
  | succ fuel ih =>
      cases fuel' with
      | zero =>
          have hnil : s = [] :=
            List.eq_nil_of_length_eq_zero (Nat.le_zero.mp hfuel')
          rw [hnil, h.nil, h.nil]
      | succ fuel' =>
          rw [h.turn, h.turn]
          cases hnext : next s with
          | none => rfl
          | some found =>
              have hshort := h.shorter s found.1 found.2 hnext
              have hrest : within fuel found.2 = within fuel' found.2 :=
                ih (by lia) (by lia)
              rw [Option.elim_some, Option.elim_some, hrest]

theorem CutsOff.all_eq (h : CutsOff next within) (s : Bytes) :
    within s.length s =
      (next s).elim []
        (fun found => found.1 :: within found.2.length found.2) := by
  rw [h.congr (le_refl _) (Nat.le_succ s.length), h.turn]
  cases hnext : next s with
  | none => rfl
  | some found =>
      have hshort := h.shorter s found.1 found.2 hnext
      rw [Option.elim_some, Option.elim_some,
        h.congr (Nat.le_of_lt hshort) (le_refl _)]

end Parts

theorem cutsOff_strtok (delim : UInt8) :
    CutsOff (strtok delim) (tokensWithin delim) where
  stop := fun _ => rfl
  turn := by
    intro fuel str
    rw [tokensWithin]
    cases strtok delim str with
    | none => rfl
    | some found => rfl
  shorter := fun _ _ _ hnext => (strtok_eq_some hnext).right

theorem tokens_eq (delim : UInt8) (str : Bytes) :
    tokens delim str =
      match strtok delim str with
      | none => []
      | some (token, rest) => token :: tokens delim rest := by
  rw [tokens, (cutsOff_strtok delim).all_eq]
  cases strtok delim str with
  | none => rfl
  | some found => rfl

/-!
## Segments
-/

section Segments

variable {alpha : Type} [DecidableEq alpha]

/-- The maximal parts without the delimiter that are not empty. -/
def segments (delim : alpha) (s : List alpha) : List (List alpha) :=
  (s.splitOn delim).filter (fun part => part ≠ [])

@[simp] theorem segments_nil (delim : alpha) : segments delim [] = [] :=
  rfl

theorem segments_append (delim : alpha) (first second : List alpha) :
    segments delim (first ++ delim :: second) =
      segments delim first ++ segments delim second := by
  unfold segments
  rw [List.splitOn_append_cons_self, List.filter_append]

theorem segments_cons (delim : alpha) (s : List alpha) :
    segments delim (delim :: s) = segments delim s :=
  segments_append delim [] s

theorem segments_of_notMem {delim : alpha} {s : List alpha} (h : delim ∉ s)
    (hne : s ≠ []) : segments delim s = [s] := by
  unfold segments
  rw [List.splitOn_eq_singleton h]
  exact List.filter_cons_of_pos (decide_eq_true hne)

theorem segments_dropWhile (delim : alpha) (s : List alpha) :
    segments delim (s.dropWhile (fun b => b = delim)) = segments delim s := by
  induction s with
  | nil => rfl
  | cons b s ih =>
      by_cases hb : b = delim
      · rw [hb, List.dropWhile_cons, if_pos (by simp), ih, segments_cons]
      · rw [List.dropWhile_cons, if_neg (by simpa using hb)]

theorem segments_takeWhile (delim : alpha) {s : List alpha}
    (hne : s.takeWhile (fun b => b ≠ delim) ≠ []) :
    segments delim s =
      s.takeWhile (fun b => b ≠ delim) ::
        segments delim ((s.dropWhile (fun b => b ≠ delim)).drop 1) := by
  have hfirst : delim ∉ s.takeWhile (fun b => b ≠ delim) := by
    intro hmem
    simpa using List.mem_takeWhile_imp hmem
  have hsplit := @List.takeWhile_append_dropWhile _ (fun b => decide (b ≠ delim)) s
  cases hrest : s.dropWhile (fun b => b ≠ delim) with
  | nil =>
      rw [hrest, List.append_nil] at hsplit
      rw [hsplit] at hfirst hne ⊢
      exact segments_of_notMem hfirst hne
  | cons b rest =>
      have hb : b = delim := by
        have hno := List.head?_dropWhile_not (fun b => decide (b ≠ delim)) s
        rw [hrest] at hno
        simpa using hno
      rw [hrest, hb] at hsplit
      conv => lhs; rw [← hsplit]
      rw [segments_append, segments_of_notMem hfirst hne]
      rfl

theorem flatten_segments (delim : alpha) (s : List alpha) :
    (segments delim s).flatten = s.filter (fun b => b ≠ delim) := by
  have hsplit : (segments delim s).flatten = (s.splitOn delim).flatten :=
    List.flatten_filter_ne_nil
  rw [hsplit]
  clear hsplit
  induction s with
  | nil => rfl
  | cons b s ih =>
      rw [List.splitOn_cons_eq_if_modifyHead]
      by_cases hb : b = delim
      · rw [if_pos (by simpa using hb), List.filter_cons_of_neg (by simpa using hb)]
        exact ih
      · rw [if_neg (by simpa using hb), List.filter_cons_of_pos (by simpa using hb),
          ← ih]
        cases hparts : s.splitOn delim with
        | nil => exact absurd hparts (List.splitOn_ne_nil delim s)
        | cons part parts => rfl

theorem segments_eq_nil_iff (delim : alpha) (s : List alpha) :
    segments delim s = [] <-> forall b, b ∈ s -> b = delim := by
  constructor
  · intro hnil b hb
    have hflat := flatten_segments delim s
    rw [hnil] at hflat
    by_contra hne
    have hmem : b ∈ s.filter (fun b => b ≠ delim) :=
      List.mem_filter.mpr ⟨hb, decide_eq_true hne⟩
    rw [← hflat] at hmem
    cases hmem
  · intro hall
    have hflat := flatten_segments delim s
    rw [List.filter_eq_nil_iff.mpr (fun b hb => by simp [hall b hb])] at hflat
    rw [List.eq_nil_iff_forall_not_mem]
    intro part hpart
    have hempty := List.flatten_eq_nil_iff.mp hflat part hpart
    exact absurd hempty (of_decide_eq_true (List.mem_filter.mp hpart).right)

theorem segments_last {delim b : alpha} (front : List alpha) (hb : b ≠ delim) :
    exists first last, forall tail, delim ∉ tail ->
      segments delim (front ++ b :: tail) = first ++ [last ++ tail] := by
  by_cases hmem : delim ∈ front
  · rcases List.eq_append_cons_of_mem (List.mem_reverse.mpr hmem) with
      ⟨after, before, hsplit, hnot⟩
    have hfront : front = before.reverse ++ delim :: after.reverse := by
      rw [← List.reverse_reverse front, hsplit, List.reverse_append,
        List.reverse_cons, List.append_assoc]
      rfl
    refine ⟨segments delim before.reverse, after.reverse ++ [b], ?_⟩
    intro tail htail
    have hpart : delim ∉ after.reverse ++ b :: tail := by
      simp [hnot, Ne.symm hb, htail]
    rw [hfront, List.append_assoc, List.cons_append, segments_append,
      segments_of_notMem hpart (by simp), List.append_assoc]
    rfl
  · refine ⟨[], front ++ [b], ?_⟩
    intro tail htail
    have hpart : delim ∉ front ++ b :: tail := by
      simp [hmem, Ne.symm hb, htail]
    rw [segments_of_notMem hpart (by simp), List.append_assoc]
    rfl

end Segments

theorem tokens_eq_segments (delim : UInt8) (str : Bytes) :
    tokens delim str = segments delim str := by
  induction hlength : str.length using Nat.strongRecOn generalizing str with
  | ind n ih =>
      rw [tokens_eq]
      cases hnext : strtok delim str with
      | none =>
          simp only [strtok] at hnext
          split at hnext
          case isTrue hstart =>
            rw [← segments_dropWhile, hstart]
            rfl
          case isFalse _ => cases hnext
      | some found =>
          rcases found with ⟨token, rest⟩
          have hshort := strtok_eq_some hnext
          simp only [strtok] at hnext
          split at hnext
          case isTrue _ => cases hnext
          case isFalse _ =>
            injection hnext with hnext
            injection hnext with htoken hrest
            have hne := hshort.left
            rw [← htoken] at hne
            have hmore := ih rest.length (hlength ▸ hshort.right) rest rfl
            have hcut := segments_takeWhile delim hne
            rw [htoken, hrest, segments_dropWhile] at hcut
            rw [hcut, ← hmore]

example : segments 1 [1, 2, 1, 1, 3] = [[2], [3]] := by decide

end Foundation
end UnixPrograms
