import Mathlib.Data.List.Basic

/-!
# Text between separators

A text is a run of symbols, followed by separators with a run after each.
Every text is such a row in exactly one way, so the runs are the maximal ones.
-/

namespace UnixPrograms
namespace Foundation

variable {α : Type}

abbrev Runs (α : Type) := List α × List (α × List α)

def splitRuns (isSep : α -> Bool) : List α -> Runs α
  | [] => ([], [])
  | a :: text =>
      let runs := splitRuns isSep text
      if isSep a = true then ([], (a, runs.1) :: runs.2)
      else (a :: runs.1, runs.2)

def joinRuns (runs : Runs α) : List α :=
  runs.1 ++ runs.2.flatMap (fun part => part.1 :: part.2)

def mapRuns (f : List α -> List α) (runs : Runs α) : Runs α :=
  (f runs.1, runs.2.map (fun part => (part.1, f part.2)))

/-- No separator lies in a run, and only separators lie between runs. -/
structure IsSeparated (isSep : α -> Bool) (runs : Runs α) : Prop where
  first : forall a, a ∈ runs.1 -> isSep a = false
  seps : forall part, part ∈ runs.2 -> isSep part.1 = true
  rest : forall part, part ∈ runs.2 -> forall a, a ∈ part.2 -> isSep a = false

theorem splitRuns_sep {isSep : α -> Bool} {a : α} (h : isSep a = true)
    (text : List α) :
    splitRuns isSep (a :: text) =
      ([], (a, (splitRuns isSep text).1) :: (splitRuns isSep text).2) := by
  rw [splitRuns, if_pos h]

theorem splitRuns_symbol {isSep : α -> Bool} {a : α} (h : isSep a = false)
    (text : List α) :
    splitRuns isSep (a :: text) =
      (a :: (splitRuns isSep text).1, (splitRuns isSep text).2) := by
  rw [splitRuns, if_neg (by rw [h]; decide)]

theorem joinRuns_splitRuns (isSep : α -> Bool) (text : List α) :
    joinRuns (splitRuns isSep text) = text := by
  induction text with
  | nil => rfl
  | cons a text ih =>
      cases h : isSep a with
      | true =>
          rw [splitRuns_sep h]
          exact congrArg (List.cons a) ih
      | false =>
          rw [splitRuns_symbol h]
          exact congrArg (List.cons a) ih

theorem splitRuns_separated (isSep : α -> Bool) (text : List α) :
    IsSeparated isSep (splitRuns isSep text) := by
  induction text with
  | nil => exact ⟨by simp [splitRuns], by simp [splitRuns], by simp [splitRuns]⟩
  | cons a text ih =>
      cases h : isSep a with
      | true =>
          rw [splitRuns_sep h]
          refine ⟨by simp, ?_, ?_⟩
          · exact List.forall_mem_cons.mpr ⟨h, ih.seps⟩
          · exact List.forall_mem_cons.mpr ⟨ih.first, ih.rest⟩
      | false =>
          rw [splitRuns_symbol h]
          exact ⟨List.forall_mem_cons.mpr ⟨h, ih.first⟩, ih.seps, ih.rest⟩

theorem splitRuns_append {isSep : α -> Bool} {run : List α}
    (h : forall a, a ∈ run -> isSep a = false) (text : List α) :
    splitRuns isSep (run ++ text) =
      (run ++ (splitRuns isSep text).1, (splitRuns isSep text).2) := by
  induction run with
  | nil => rfl
  | cons a run ih =>
      have hrun := ih (fun b hb => h b (List.mem_cons_of_mem a hb))
      rw [List.cons_append, splitRuns_symbol (h a List.mem_cons_self), hrun]
      rfl

theorem splitRuns_joinRuns {isSep : α -> Bool} {first : List α}
    {rest : List (α × List α)} (h : IsSeparated isSep (first, rest)) :
    splitRuns isSep (joinRuns (first, rest)) = (first, rest) := by
  induction rest generalizing first with
  | nil =>
      rw [joinRuns, splitRuns_append h.first]
      simp [splitRuns]
  | cons part rest ih =>
      have hsep := h.seps part List.mem_cons_self
      have hrest := @ih part.2
        ⟨h.rest part List.mem_cons_self,
          fun p hp => h.seps p (List.mem_cons_of_mem part hp),
          fun p hp => h.rest p (List.mem_cons_of_mem part hp)⟩
      change splitRuns isSep (first ++ part.1 :: joinRuns (part.2, rest)) = _
      rw [splitRuns_append h.first, splitRuns_sep hsep, hrest, List.append_nil]

theorem IsSeparated.mapRuns {isSep : α -> Bool} {f : List α -> List α}
    {runs : Runs α} (h : IsSeparated isSep runs)
    (hf : forall run, (forall a, a ∈ run -> isSep a = false) ->
      forall a, a ∈ f run -> isSep a = false) :
    IsSeparated isSep (mapRuns f runs) where
  first := hf runs.1 h.first
  seps := by
    intro part hpart
    rcases List.mem_map.mp hpart with ⟨old, hold, heq⟩
    rw [← heq]
    exact h.seps old hold
  rest := by
    intro part hpart
    rcases List.mem_map.mp hpart with ⟨old, hold, heq⟩
    rw [← heq]
    exact hf old.2 (h.rest old hold)

theorem IsSeparated.mapRuns_mapRuns {isSep : α -> Bool} {f : List α -> List α}
    {runs : Runs α} (h : IsSeparated isSep runs)
    (hf : forall run, (forall a, a ∈ run -> isSep a = false) ->
      f (f run) = f run) :
    Foundation.mapRuns f (Foundation.mapRuns f runs) =
      Foundation.mapRuns f runs := by
  have hrest : forall part, part ∈ runs.2 ->
      (part.1, f (f part.2)) = (part.1, f part.2) := by
    intro part hpart
    rw [hf part.2 (h.rest part hpart)]
  rw [Foundation.mapRuns, Foundation.mapRuns, List.map_map, hf runs.1 h.first]
  exact congrArg (Prod.mk (f runs.1)) (List.map_congr_left hrest)

end Foundation
end UnixPrograms
