import Mathlib.Data.List.Basic

/-!
# Counting over a family

The members of a family contribute lists, and what they contribute together is
counted while single members are replaced and new ones appear.
-/

namespace UnixPrograms
namespace Foundation

variable {alpha beta : Type} [BEq beta]

/-- How often the members contribute a value. -/
def tally (f : alpha -> List beta) (xs : List alpha) (b : beta) : Nat :=
  (xs.flatMap f).count b

@[simp] theorem tally_nil (f : alpha -> List beta) (b : beta) :
    tally f [] b = 0 := rfl

@[simp] theorem tally_cons (f : alpha -> List beta) (x : alpha)
    (xs : List alpha) (b : beta) :
    tally f (x :: xs) b = (f x).count b + tally f xs b := by
  rw [tally, List.flatMap_cons, List.count_append, tally]

theorem tally_append (f : alpha -> List beta) (xs ys : List alpha) (b : beta) :
    tally f (xs ++ ys) b = tally f xs b + tally f ys b := by
  rw [tally, List.flatMap_append, List.count_append, tally, tally]

theorem tally_eq_zero [LawfulBEq beta] {f : alpha -> List beta}
    {xs : List alpha} {b : beta} :
    tally f xs b = 0 <-> forall x, x ∈ xs -> b ∉ f x := by
  rw [tally, List.count_eq_zero, List.mem_flatMap]
  constructor
  · intro h x hx hb
    exact h ⟨x, hx, hb⟩
  · rintro h ⟨x, hx, hb⟩
    exact h x hx hb

theorem tally_mono {f g : alpha -> List beta} {xs : List alpha} {b c : beta}
    (h : forall x, x ∈ xs -> (f x).count b ≤ (g x).count c) :
    tally f xs b ≤ tally g xs c := by
  induction xs with
  | nil => exact Nat.le_refl 0
  | cons x xs ih =>
      rw [tally_cons, tally_cons]
      exact Nat.add_le_add (h x List.mem_cons_self)
        (ih (fun y hy => h y (List.mem_cons_of_mem x hy)))

theorem tally_congr {f g : alpha -> List beta} {xs : List alpha} {b : beta}
    (h : forall x, x ∈ xs -> f x = g x) : tally f xs b = tally g xs b := by
  apply Nat.le_antisymm
  · apply tally_mono
    intro x hx
    exact Nat.le_of_eq (by rw [h x hx])
  · apply tally_mono
    intro x hx
    exact Nat.le_of_eq (by rw [h x hx])

theorem tally_add (f g : alpha -> List beta) (xs : List alpha) (b : beta) :
    tally (fun x => f x ++ g x) xs b = tally f xs b + tally g xs b := by
  induction xs with
  | nil => rfl
  | cons x xs ih =>
      simp only [tally_cons, List.count_append, ih]
      lia

theorem count_le_tally {f : alpha -> List beta} {xs : List alpha} {x : alpha}
    (h : x ∈ xs) (b : beta) : (f x).count b ≤ tally f xs b := by
  induction xs with
  | nil => cases h
  | cons y ys ih =>
      rw [tally_cons]
      rcases List.mem_cons.mp h with heq | hmem
      · rw [heq]
        exact Nat.le_add_right _ _
      · exact Nat.le_trans (ih hmem) (Nat.le_add_left _ _)

theorem count_add_count_le_tally {f : alpha -> List beta} {xs : List alpha}
    {x y : alpha} {i j : Nat} (hi : xs[i]? = some x) (hj : xs[j]? = some y)
    (hne : i ≠ j) (b : beta) :
    (f x).count b + (f y).count b ≤ tally f xs b := by
  induction xs generalizing i j with
  | nil => cases hi
  | cons z zs ih =>
      rw [tally_cons]
      cases i with
      | zero =>
          cases j with
          | zero => exact absurd rfl hne
          | succ j =>
              cases hi
              have hmem : y ∈ zs := List.mem_of_getElem? hj
              exact Nat.add_le_add_left (count_le_tally hmem b) _
      | succ i =>
          cases j with
          | zero =>
              cases hj
              have hmem : x ∈ zs := List.mem_of_getElem? hi
              rw [Nat.add_comm]
              exact Nat.add_le_add_left (count_le_tally hmem b) _
          | succ j =>
              have hle := ih hi hj (fun heq => hne (congrArg Nat.succ heq))
              lia

theorem tally_set {f g : alpha -> List beta} {xs : List alpha} {i : Nat}
    {x y : alpha} (hx : xs[i]? = some x)
    (hothers : forall j z, j ≠ i -> xs[j]? = some z -> g z = f z) (b : beta) :
    tally g (xs.set i y) b + (f x).count b =
      tally f xs b + (g y).count b := by
  induction xs generalizing i with
  | nil => cases hx
  | cons z zs ih =>
      cases i with
      | zero =>
          cases hx
          have hsame : tally g zs b = tally f zs b := by
            apply tally_congr
            intro w hw
            rcases List.getElem?_of_mem hw with ⟨j, hj⟩
            exact hothers (j + 1) w (Nat.succ_ne_zero j) hj
          rw [List.set_cons_zero, tally_cons, tally_cons, hsame]
          lia
      | succ i =>
          have hrest := ih hx (fun j w hne hw =>
            hothers (j + 1) w (fun heq => hne (Nat.succ.inj heq)) hw)
          rw [List.set_cons_succ, tally_cons, tally_cons,
            hothers 0 z (Nat.succ_ne_zero i).symm rfl]
          lia

end Foundation
end UnixPrograms
