import Mathlib.Data.List.Basic

/-!
# Sequential stacks and orders of operations

The sequential specification of a stack as a replay of operations, and the
projection of one global order of operations to a single participant.
-/

namespace UnixPrograms
namespace Foundation

/-- A stack operation together with the value it moved. -/
inductive LifoOp (alpha : Type) where
  | push (val : alpha)
  | pop (val : alpha)
deriving DecidableEq

namespace Lifo

variable {alpha : Type} [DecidableEq alpha]

/-- One operation on a stack listed from its top; a pop must deliver the top. -/
def apply : List alpha -> LifoOp alpha -> Option (List alpha)
  | items, LifoOp.push val => some (val :: items)
  | [], LifoOp.pop _ => none
  | top :: rest, LifoOp.pop val => if top = val then some rest else none

def replay : List alpha -> List (LifoOp alpha) -> Option (List alpha)
  | items, [] => some items
  | items, op :: rest =>
      match apply items op with
      | none => none
      | some items' => replay items' rest

theorem replay_snoc {items mid : List alpha} {ops : List (LifoOp alpha)}
    (op : LifoOp alpha) (h : replay items ops = some mid) :
    replay items (ops ++ [op]) = apply mid op := by
  induction ops generalizing items with
  | nil =>
      cases h
      simp only [List.nil_append, replay]
      cases apply mid op <;> rfl
  | cons first rest ih =>
      simp only [replay, List.cons_append] at h ⊢
      cases hfirst : apply items first with
      | none =>
          rw [hfirst] at h
          cases h
      | some items' =>
          rw [hfirst] at h
          exact ih h

theorem apply_pop_top (top : alpha) (rest : List alpha) :
    apply (top :: rest) (LifoOp.pop top) = some rest := by
  simp [apply]

theorem replay_length {items items' : List alpha} {ops : List (LifoOp alpha)}
    (h : replay items ops = some items') :
    items'.length + (ops.filter fun op => op matches LifoOp.pop _).length =
      items.length +
        (ops.filter fun op => op matches LifoOp.push _).length := by
  induction ops generalizing items with
  | nil =>
      cases h
      rfl
  | cons op rest ih =>
      simp only [replay] at h
      cases op with
      | push val =>
          have hrest := ih h
          simp only [List.length_cons] at hrest
          simp
          lia
      | pop val =>
          cases items with
          | nil => cases h
          | cons top below =>
              simp only [apply] at h
              by_cases htop : top = val
              · rw [if_pos htop] at h
                have hrest := ih h
                simp
                lia
              · rw [if_neg htop] at h
                cases h

end Lifo

/-!
## Projections of a global order
-/

def projection {pid op : Type} [DecidableEq pid] (p : pid)
    (order : List (pid × op)) : List op :=
  (order.filter fun entry => entry.1 = p).map Prod.snd

section Projection

variable {pid op : Type} [DecidableEq pid]

theorem projection_snoc_self (p : pid) (order : List (pid × op)) (x : op) :
    projection p (order ++ [(p, x)]) = projection p order ++ [x] := by
  simp [projection]

theorem projection_snoc_of_ne {p q : pid} (h : q ≠ p)
    (order : List (pid × op)) (x : op) :
    projection q (order ++ [(p, x)]) = projection q order := by
  simp [projection, Ne.symm h]

theorem map_snd_eq_projection {p : pid} {order : List (pid × op)}
    (h : forall q, q ≠ p -> projection q order = []) :
    order.map Prod.snd = projection p order := by
  have honly : forall entry, entry ∈ order -> entry.1 = p := by
    intro entry hentry
    by_cases hq : entry.1 = p
    · exact hq
    · have hmem : entry.2 ∈ projection entry.1 order := by
        simp only [projection, List.mem_map, List.mem_filter]
        exact ⟨entry, ⟨hentry, by simp⟩, rfl⟩
      rw [h entry.1 hq] at hmem
      cases hmem
  rw [projection, List.filter_eq_self.mpr]
  intro entry hentry
  simpa using honly entry hentry

end Projection

end Foundation
end UnixPrograms
