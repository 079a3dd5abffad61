import Mathlib.Data.List.Forall2
import Mathlib.Data.Option.Basic

/-!
# Runs of labelled transition systems

A system is a partial step function: the label fixes every choice the
environment makes, and a step without a result is not enabled.  Properties of
all interleavings are properties of all label sequences, and the induction
over a run is done here once.
-/

namespace UnixPrograms
namespace Foundation

variable {state label : Type}

/-- Take the labelled steps one after another. -/
def run (step : state -> label -> Option state) :
    state -> List label -> Option state
  | s, [] => some s
  | s, l :: rest =>
      match step s l with
      | none => none
      | some s' => run step s' rest

theorem run_cons (step : state -> label -> Option state) (s : state)
    (l : label) (rest : List label) :
    run step s (l :: rest) =
      match step s l with
      | none => none
      | some s' => run step s' rest := rfl

theorem run_cons_of_step {step : state -> label -> Option state}
    {s s' : state} {l : label} (rest : List label)
    (h : step s l = some s') :
    run step s (l :: rest) = run step s' rest := by
  rw [run_cons, h]

theorem run_cons_eq_some {step : state -> label -> Option state}
    {s t : state} {l : label} {rest : List label}
    (h : run step s (l :: rest) = some t) :
    exists s', step s l = some s' ∧ run step s' rest = some t := by
  rw [run_cons] at h
  cases hstep : step s l with
  | none =>
      rw [hstep] at h
      cases h
  | some s' =>
      rw [hstep] at h
      exact ⟨s', rfl, h⟩

theorem run_append {step : state -> label -> Option state}
    {s mid t : state} {first second : List label}
    (hfirst : run step s first = some mid)
    (hsecond : run step mid second = some t) :
    run step s (first ++ second) = some t := by
  induction first generalizing s with
  | nil =>
      cases hfirst
      exact hsecond
  | cons l rest ih =>
      rcases run_cons_eq_some hfirst with ⟨s', hstep, hrest⟩
      rw [List.cons_append, run_cons_of_step _ hstep]
      exact ih hrest

theorem enabled_of_mem {step : state -> label -> Option state} {s t : state}
    {l : label} {labels : List label} (hrun : run step s labels = some t)
    (hl : l ∈ labels) : exists before after, step before l = some after := by
  induction labels generalizing s with
  | nil => cases hl
  | cons first rest ih =>
      rcases run_cons_eq_some hrun with ⟨s', hstep, hrest⟩
      rcases List.mem_cons.mp hl with heq | hmem
      · rw [heq]
        exact ⟨s, s', hstep⟩
      · exact ih hrest hmem

/-!
## Runs whose steps all meet a condition

The condition reads the state before the step and the label, never the state
that the step produces.
-/

/-- Every step of the run from `s` is taken under `guard`. -/
def AllSteps (step : state -> label -> Option state)
    (guard : state -> label -> Prop) : state -> List label -> Prop
  | _, [] => True
  | s, l :: rest =>
      guard s l ∧
        forall s', step s l = some s' -> AllSteps step guard s' rest

instance AllSteps.decidable {step : state -> label -> Option state}
    {guard : state -> label -> Prop}
    [hguard : forall s l, Decidable (guard s l)] :
    forall (labels : List label) (s : state),
      Decidable (AllSteps step guard s labels)
  | [], _ => isTrue trivial
  | l :: rest, s =>
      match hguard s l, hstep : step s l with
      | isFalse hno, _ => isFalse (fun h => hno h.left)
      | isTrue hyes, none =>
          isTrue ⟨hyes, fun s' h => by rw [hstep] at h; cases h⟩
      | isTrue hyes, some s' =>
          match AllSteps.decidable rest s' with
          | isTrue hrest =>
              isTrue ⟨hyes, fun s'' h => by
                rw [hstep] at h
                injection h with h
                rw [← h]
                exact hrest⟩
          | isFalse hno => isFalse (fun h => hno (h.right s' hstep))

theorem allSteps_of_forall {step : state -> label -> Option state}
    {guard : state -> label -> Prop} (h : forall s l, guard s l) :
    forall (labels : List label) (s : state), AllSteps step guard s labels
  | [], _ => trivial
  | _ :: rest, s =>
      ⟨h s _, fun s' _ => allSteps_of_forall h rest s'⟩

theorem allSteps_of_mem {step : state -> label -> Option state}
    {allowed : label -> Prop} {labels : List label}
    (h : forall l, l ∈ labels -> allowed l) (s : state) :
    AllSteps step (fun _ l => allowed l) s labels := by
  induction labels generalizing s with
  | nil => trivial
  | cons l rest ih =>
      exact ⟨h l List.mem_cons_self,
        fun s' _ => ih (fun l' hl' => h l' (List.mem_cons_of_mem l hl')) s'⟩

theorem AllSteps.mono {step : state -> label -> Option state}
    {strong weak : state -> label -> Prop}
    (himp : forall s l, strong s l -> weak s l)
    {s : state} {labels : List label}
    (h : AllSteps step strong s labels) : AllSteps step weak s labels := by
  induction labels generalizing s with
  | nil => trivial
  | cons l rest ih =>
      exact ⟨himp s l h.left, fun s' hstep => ih (h.right s' hstep)⟩

theorem AllSteps.and {step : state -> label -> Option state}
    {first second : state -> label -> Prop} {s : state} {labels : List label}
    (hfirst : AllSteps step first s labels)
    (hsecond : AllSteps step second s labels) :
    AllSteps step (fun s l => first s l ∧ second s l) s labels := by
  induction labels generalizing s with
  | nil => trivial
  | cons l rest ih =>
      exact ⟨⟨hfirst.left, hsecond.left⟩,
        fun s' hstep => ih (hfirst.right s' hstep) (hsecond.right s' hstep)⟩

theorem allSteps_iff_split {step : state -> label -> Option state}
    {guard : state -> label -> Prop} {s : state} {labels : List label} :
    AllSteps step guard s labels <->
      forall before l after t, labels = before ++ l :: after ->
        run step s before = some t -> guard t l := by
  constructor
  · intro h before
    induction before generalizing s labels with
    | nil =>
        intro l after t hlabels hrun
        subst hlabels
        cases hrun
        exact h.left
    | cons first rest ih =>
        intro l after t hlabels hrun
        subst hlabels
        rcases run_cons_eq_some hrun with ⟨s', hstep, hrest⟩
        exact ih (h.right s' hstep) l after t rfl hrest
  · intro h
    induction labels generalizing s with
    | nil => trivial
    | cons l rest ih =>
        refine ⟨h [] l rest s rfl rfl, fun s' hstep => ih ?_⟩
        intro before l' after t hrest hrun
        refine h (l :: before) l' after t (by rw [hrest]; rfl) ?_
        rw [run_cons_of_step _ hstep]
        exact hrun

theorem allSteps_congr {step : state -> label -> Option state}
    {first second : state -> label -> Prop} {Inv : state -> Prop}
    (hkeep : forall s l s', Inv s -> step s l = some s' -> Inv s')
    (hsame : forall s l, Inv s -> (first s l <-> second s l))
    {s : state} (hs : Inv s) (labels : List label) :
    AllSteps step first s labels <-> AllSteps step second s labels := by
  induction labels generalizing s with
  | nil => exact Iff.rfl
  | cons l rest ih =>
      apply and_congr (hsame s l hs)
      apply forall_congr'
      intro s'
      apply imp_congr_right
      intro hstep
      exact ih (hkeep s l s' hs hstep)

theorem AllSteps.take {step : state -> label -> Option state}
    {guard : state -> label -> Prop} {s : state} {before after : List label}
    (h : AllSteps step guard s (before ++ after)) :
    AllSteps step guard s before := by
  induction before generalizing s with
  | nil => trivial
  | cons l rest ih =>
      exact ⟨h.left, fun s' hstep => ih (h.right s' hstep)⟩

/-- The invariant rule: what every guarded step keeps, every guarded run
keeps. -/
theorem run_invariant {step : state -> label -> Option state}
    {guard : state -> label -> Prop} (Inv : state -> Prop)
    (hkeep : forall s l s', Inv s -> guard s l -> step s l = some s' -> Inv s')
    {s t : state} {labels : List label} (hs : Inv s)
    (hguard : AllSteps step guard s labels)
    (hrun : run step s labels = some t) : Inv t := by
  induction labels generalizing s with
  | nil =>
      cases hrun
      exact hs
  | cons l rest ih =>
      rcases run_cons_eq_some hrun with ⟨s', hstep, hrest⟩
      exact ih (hkeep s l s' hs hguard.left hstep)
        (hguard.right s' hstep) hrest

def total (quantity : label -> Nat) : List label -> Nat
  | [] => 0
  | l :: rest => quantity l + total quantity rest

theorem total_one (labels : List label) :
    total (fun _ => 1) labels = labels.length := by
  induction labels with
  | nil => rfl
  | cons l rest ih =>
      rw [total, ih, List.length_cons, Nat.add_comm]

/-- The potential rule: a step pays what it costs out of the potential and of
what its label brings in, and so does a run. -/
theorem run_potential {step : state -> label -> Option state}
    {guard : state -> label -> Prop} (Inv : Nat -> state -> Prop)
    (cost income : label -> Nat)
    (hkeep : forall n s l s', Inv n s -> guard s l -> step s l = some s' ->
      exists m, Inv m s' ∧ m + cost l ≤ n + income l)
    {n : Nat} {s t : state} {labels : List label} (hs : Inv n s)
    (hguard : AllSteps step guard s labels)
    (hrun : run step s labels = some t) :
    exists m, Inv m t ∧ m + total cost labels ≤ n + total income labels := by
  induction labels generalizing n s with
  | nil =>
      cases hrun
      exact ⟨n, hs, Nat.le_refl _⟩
  | cons l rest ih =>
      rcases run_cons_eq_some hrun with ⟨s', hstep, hrest⟩
      rcases hkeep n s l s' hs hguard.left hstep with ⟨mid, hmid, hpaid⟩
      rcases ih hmid (hguard.right s' hstep) hrest with ⟨m, hm, htotal⟩
      refine ⟨m, hm, ?_⟩
      rw [total, total]
      lia

/-- The simulation rule: where each step of a system is one of its part, under
a label that answers to its own, so is each run. -/
theorem run_part {part partLabel : Type} {step : state -> label -> Option state}
    {partStep : part -> partLabel -> Option part}
    {guard : state -> label -> Prop} (view : state -> part)
    (Answers : label -> partLabel -> Prop) (Inv : state -> Prop)
    (hkeep : forall s l s', Inv s -> guard s l -> step s l = some s' ->
      Inv s' ∧ exists k, Answers l k ∧ partStep (view s) k = some (view s'))
    {s t : state} {labels : List label} (hs : Inv s)
    (hguard : AllSteps step guard s labels)
    (hrun : run step s labels = some t) :
    exists keys, List.Forall₂ Answers labels keys ∧
      run partStep (view s) keys = some (view t) := by
  induction labels generalizing s with
  | nil =>
      cases hrun
      exact ⟨[], List.Forall₂.nil, rfl⟩
  | cons l rest ih =>
      rcases run_cons_eq_some hrun with ⟨s', hstep, hrest⟩
      rcases hkeep s l s' hs hguard.left hstep with ⟨hs', k, hanswers, hpart⟩
      rcases ih hs' (hguard.right s' hstep) hrest with ⟨keys, hkeys, hkeysRun⟩
      refine ⟨k :: keys, List.Forall₂.cons hanswers hkeys, ?_⟩
      rw [run_cons_of_step keys hpart]
      exact hkeysRun

theorem exists_mem_of_forall₂ {partLabel : Type}
    {Answers : label -> partLabel -> Prop} {labels : List label}
    {keys : List partLabel} (h : List.Forall₂ Answers labels keys)
    {k : partLabel} (hk : k ∈ keys) : exists l, l ∈ labels ∧ Answers l k := by
  induction h with
  | nil => cases hk
  | cons hfirst hrest ih =>
      rcases List.mem_cons.mp hk with heq | hmem
      · rw [heq]
        exact ⟨_, List.mem_cons_self, hfirst⟩
      · rcases ih hmem with ⟨l, hl, hanswers⟩
        exact ⟨l, List.mem_cons_of_mem _ hl, hanswers⟩

/-- A run keeps an invariant as long as its steps meet the guard, and the
first step that does not breaks it for good.  The steps may be assumed to meet
another condition throughout. -/
theorem run_splits_assuming {step : state -> label -> Option state}
    {assumed guard : state -> label -> Prop} (Inv Broken : state -> Prop)
    (hkeep : forall s l s', Inv s -> assumed s l -> guard s l ->
      step s l = some s' -> Inv s')
    (hbreak : forall s l s', Inv s -> assumed s l -> ¬ guard s l ->
      step s l = some s' -> Broken s')
    (hstay : forall s l s', Broken s -> assumed s l -> step s l = some s' ->
      Broken s')
    {s t : state} {labels : List label} (hs : Inv s)
    (hassumed : AllSteps step assumed s labels)
    (hrun : run step s labels = some t) :
    (AllSteps step guard s labels ∧ Inv t) ∨
      (¬ AllSteps step guard s labels ∧ Broken t) := by
  induction labels generalizing s with
  | nil =>
      cases hrun
      exact Or.inl ⟨trivial, hs⟩
  | cons l rest ih =>
      rcases run_cons_eq_some hrun with ⟨mid, hstep, hrest⟩
      by_cases hguard : guard s l
      · rcases ih (hkeep s l mid hs hassumed.left hguard hstep)
          (hassumed.right mid hstep) hrest with ⟨hall, hinv⟩ | ⟨hno, hbroken⟩
        · refine Or.inl ⟨⟨hguard, fun s' hstep' => ?_⟩, hinv⟩
          rw [hstep] at hstep'
          injection hstep' with hstep'
          rw [← hstep']
          exact hall
        · exact Or.inr ⟨fun hall => hno (hall.right mid hstep), hbroken⟩
      · refine Or.inr ⟨fun hall => hguard hall.left, ?_⟩
        exact run_invariant Broken hstay
          (hbreak s l mid hs hassumed.left hguard hstep)
          (hassumed.right mid hstep) hrest

theorem run_splits {step : state -> label -> Option state}
    {assumed guard : state -> label -> Prop} (Inv Broken : state -> Prop)
    (hkeep : forall s l s', Inv s -> assumed s l -> guard s l ->
      step s l = some s' -> Inv s')
    (hbreak : forall s l s', Inv s -> assumed s l -> ¬ guard s l ->
      step s l = some s' -> Broken s')
    (hstay : forall s l s', Broken s -> step s l = some s' -> Broken s')
    {s t : state} {labels : List label} (hs : Inv s)
    (hassumed : AllSteps step assumed s labels)
    (hrun : run step s labels = some t) :
    (AllSteps step guard s labels ∧ Inv t) ∨
      (¬ AllSteps step guard s labels ∧ Broken t) :=
  run_splits_assuming Inv Broken hkeep hbreak
    (fun s l s' hbroken _ hstep => hstay s l s' hbroken hstep) hs hassumed hrun

/-!
## What a run emits
-/

def emitted (step : state -> label -> Option state)
    (emit : state -> label -> Option event) : state -> List label -> List event
  | _, [] => []
  | s, l :: rest =>
      match step s l with
      | none => []
      | some s' => (emit s l).toList ++ emitted step emit s' rest

theorem emitted_cons {step : state -> label -> Option state}
    (emit : state -> label -> Option event) {s s' : state} {l : label}
    (rest : List label) (h : step s l = some s') :
    emitted step emit s (l :: rest) =
      (emit s l).toList ++ emitted step emit s' rest := by
  rw [emitted, h]

theorem emitted_eq_filterMap {step : state -> label -> Option state}
    (emit : label -> Option event) {s t : state} {labels : List label}
    (hrun : run step s labels = some t) :
    emitted step (fun _ l => emit l) s labels = labels.filterMap emit := by
  induction labels generalizing s with
  | nil => rfl
  | cons l rest ih =>
      rcases run_cons_eq_some hrun with ⟨s', hstep, hrest⟩
      rw [emitted_cons _ rest hstep, ih hrest, List.filterMap_cons]
      cases emit l with
      | none => rfl
      | some event => rfl

theorem run_emits {step : state -> label -> Option state}
    {emit : state -> label -> Option event} {guard : state -> label -> Prop}
    (Inv : List event -> state -> Prop)
    (hkeep : forall past s l s', Inv past s -> guard s l ->
      step s l = some s' -> Inv (past ++ (emit s l).toList) s')
    {past : List event} {s t : state} {labels : List label} (hs : Inv past s)
    (hguard : AllSteps step guard s labels)
    (hrun : run step s labels = some t) :
    Inv (past ++ emitted step emit s labels) t := by
  induction labels generalizing past s with
  | nil =>
      cases hrun
      rw [emitted, List.append_nil]
      exact hs
  | cons l rest ih =>
      rcases run_cons_eq_some hrun with ⟨s', hstep, hrest⟩
      rw [emitted_cons emit rest hstep, ← List.append_assoc]
      exact ih (hkeep past s l s' hs hguard.left hstep)
        (hguard.right s' hstep) hrest

/-!
## States that some run reaches
-/

def CanReach (step : state -> label -> Option state) (s : state)
    (goal : state -> Prop) : Prop :=
  exists labels t, run step s labels = some t ∧ goal t

theorem CanReach.here {step : state -> label -> Option state} {s : state}
    {goal : state -> Prop} (h : goal s) : CanReach step s goal :=
  ⟨[], s, rfl, h⟩

theorem CanReach.of_step {step : state -> label -> Option state}
    {s s' : state} {goal : state -> Prop} (l : label)
    (hstep : step s l = some s') (h : CanReach step s' goal) :
    CanReach step s goal := by
  rcases h with ⟨labels, t, hrun, hgoal⟩
  refine ⟨l :: labels, t, ?_, hgoal⟩
  rw [run_cons_of_step labels hstep]
  exact hrun

end Foundation
end UnixPrograms
