import Mathlib.Logic.Function.Basic
import Mathlib.Data.List.Nodup

/-!
# Stores under a plan of writes

A plan says which keys of a store are to be written and with which values.  As
long as nothing but the plan is carried out, in whatever order and however
often, the store is determined by the writes that have been made; when all of
them have been, it is the overlay of the plan.
-/

namespace UnixPrograms
namespace Foundation
namespace Plan

variable {key value : Type}

def Functional (plan : List (key × value)) : Prop :=
  forall k v v', (k, v) ∈ plan -> (k, v') ∈ plan -> v = v'

def Writes (plan : List (key × value)) (k : key) : Prop :=
  exists v, (k, v) ∈ plan

/-- Every key has its first value or the planned one. -/
structure Within (plan : List (key × value)) (start now : key -> Option value) :
    Prop where
  planned : forall k v, (k, v) ∈ plan -> now k = start k ∨ now k = some v
  others : forall k, ¬ Writes plan k -> now k = start k

/-- A step that keeps to the plan. -/
inductive Step [DecidableEq key] (plan : List (key × value))
    (now : key -> Option value) : (key -> Option value) -> Prop where
  | stay : Step plan now now
  | write {k : key} {v : value} :
      (k, v) ∈ plan -> Step plan now (Function.update now k (some v))

def overlay [DecidableEq key] (plan : List (key × value))
    (start : key -> Option value) : key -> Option value :=
  fun k =>
    match plan.find? (fun w => w.1 = k) with
    | none => start k
    | some w => some w.2

theorem functional_singleton (k : key) (v : value) : Functional [(k, v)] := by
  intro k' v1 v2 h1 h2
  cases List.mem_singleton.mp h1
  cases List.mem_singleton.mp h2
  rfl

theorem Functional.perm {plan plan' : List (key × value)}
    (h : Functional plan) (hperm : plan'.Perm plan) : Functional plan' := by
  intro k v v' hv hv'
  exact h k v v' (hperm.mem_iff.mp hv) (hperm.mem_iff.mp hv')

theorem functional_of_nodup {plan : List (key × value)}
    (h : (plan.map Prod.fst).Nodup) : Functional plan := by
  intro k v v' hv hv'
  have hsame := List.inj_on_of_nodup_map h hv hv' rfl
  injection hsame

theorem Within.refl (plan : List (key × value))
    (start : key -> Option value) : Within plan start start :=
  ⟨fun _ _ _ => Or.inl rfl, fun _ _ => rfl⟩

section Store

variable [DecidableEq key] {plan : List (key × value)}
  {start now now' : key -> Option value}

theorem overlay_of_mem (hfunctional : Functional plan) {k : key} {v : value}
    (h : (k, v) ∈ plan) : overlay plan start k = some v := by
  have hsome : (plan.find? (fun w => w.1 = k)).isSome = true := by
    rw [List.find?_isSome]
    exact ⟨(k, v), h, by simp⟩
  rcases Option.isSome_iff_exists.mp hsome with ⟨w, hw⟩
  have hkey : w.1 = k := by
    simpa using List.find?_some hw
  have hmem : (k, w.2) ∈ plan := by
    rw [← hkey]
    exact List.mem_of_find?_eq_some hw
  unfold overlay
  rw [hw]
  exact congrArg some (hfunctional k w.2 v hmem h)

theorem overlay_of_not_writes {k : key} (h : ¬ Writes plan k) :
    overlay plan start k = start k := by
  have hnone : plan.find? (fun w => w.1 = k) = none := by
    rw [List.find?_eq_none]
    rintro ⟨k', v⟩ hmem
    simp only [decide_eq_true_eq]
    intro heq
    subst heq
    exact h ⟨v, hmem⟩
  unfold overlay
  rw [hnone]

theorem overlay_append (plan plan' : List (key × value))
    (start : key -> Option value) :
    overlay (plan ++ plan') start = overlay plan (overlay plan' start) := by
  funext k
  unfold overlay
  rw [List.find?_append]
  cases plan.find? (fun w => w.1 = k) with
  | none => rfl
  | some w => rfl

theorem overlay_singleton (k : key) (v : value)
    (start : key -> Option value) :
    overlay [(k, v)] start = Function.update start k (some v) := by
  funext k'
  by_cases hk : k' = k
  · subst hk
    simp [overlay]
  · have hne : k ≠ k' := fun heq => hk heq.symm
    simp [overlay, hk, hne]

theorem overlay_perm (hfunctional : Functional plan)
    {plan' : List (key × value)} (hperm : plan'.Perm plan) :
    overlay plan' start = overlay plan start := by
  funext k
  by_cases hwrites : Writes plan k
  · rcases hwrites with ⟨v, hmem⟩
    rw [overlay_of_mem hfunctional hmem,
      overlay_of_mem (hfunctional.perm hperm) (hperm.mem_iff.mpr hmem)]
  · have hwrites' : ¬ Writes plan' k := by
      rintro ⟨v, hmem⟩
      exact hwrites ⟨v, hperm.mem_iff.mp hmem⟩
    rw [overlay_of_not_writes hwrites, overlay_of_not_writes hwrites']

theorem overlay_update {k : key} {v : Option value} (h : ¬ Writes plan k) :
    overlay plan (Function.update start k v) =
      Function.update (overlay plan start) k v := by
  funext k'
  by_cases hk : k' = k
  · subst hk
    rw [overlay_of_not_writes h, Function.update_self, Function.update_self]
  · rw [Function.update_of_ne hk]
    unfold overlay
    rw [Function.update_of_ne hk]

theorem Within.step (hfunctional : Functional plan)
    (h : Within plan start now) (hstep : Step plan now now') :
    Within plan start now' := by
  cases hstep with
  | stay => exact h
  | @write k v hmem =>
      constructor
      · intro k' v' hmem'
        by_cases hk : k' = k
        · subst hk
          rw [Function.update_self, hfunctional k' v v' hmem hmem']
          exact Or.inr rfl
        · rw [Function.update_of_ne hk]
          exact h.planned k' v' hmem'
      · intro k' hothers
        have hk : k' ≠ k := by
          intro heq
          rw [heq] at hothers
          exact hothers ⟨v, hmem⟩
        rw [Function.update_of_ne hk]
        exact h.others k' hothers

theorem Step.kept (hfunctional : Functional plan) (hstep : Step plan now now')
    {k : key} {v : value} (hmem : (k, v) ∈ plan) (h : now k = some v) :
    now' k = some v := by
  cases hstep with
  | stay => exact h
  | @write k' v' hmem' =>
      by_cases hk : k = k'
      · subst hk
        rw [Function.update_self, hfunctional k v' v hmem' hmem]
      · rw [Function.update_of_ne hk]
        exact h

theorem Within.complete (hfunctional : Functional plan)
    (h : Within plan start now)
    (hdone : forall k v, (k, v) ∈ plan -> now k = some v) :
    now = overlay plan start := by
  funext k
  by_cases hwrites : Writes plan k
  · rcases hwrites with ⟨v, hmem⟩
    rw [hdone k v hmem, overlay_of_mem hfunctional hmem]
  · rw [h.others k hwrites, overlay_of_not_writes hwrites]

end Store

end Plan
end Foundation
end UnixPrograms
