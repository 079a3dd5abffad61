import UnixPrograms.StackOld.Order

/-!
# How `flag` is lost

The semaphores have no undo, and a call that finds `EAGAIN` in `errno` returns
-1 whatever `sem_trywait` has answered: a process that is killed inside, or
that calls again with the `EAGAIN` of an earlier call, leaves `flag` down.  No
element is moved from then on.
-/

namespace UnixPrograms
namespace StackOld

open Foundation
open Ipc (Ptr Pid)
open Stack (Request Outcome content)

def Status.inside (status : Status) : Bool :=
  status.locked && status.nextOp.isSome

/-- `flag` is down, and nobody is left who would post it. -/
def Lost (s : State) : Prop :=
  s.kernel.val Sem.flag = 0 ∧ forall p, Status.inside (s.status p) = false

/-- A process is killed inside, or takes `flag` and finds an old `EAGAIN`. -/
def Loses (s : State) : Label -> Prop
  | Label.atom p _ =>
      Status.inside (s.status p) = true ∧
        (s.status p).nextOp = some Op.errno ∧ s.kernel.errno p = EAGAIN
  | Label.kill p => Status.inside (s.status p) = true
  | _ => False

instance (s : State) : forall l, Decidable (Loses s l)
  | Label.begin _ _ _ => isFalse id
  | Label.atom _ _ => inferInstanceAs (Decidable (_ ∧ _ ∧ _))
  | Label.finish _ => isFalse id
  | Label.kill p =>
      inferInstanceAs (Decidable (Status.inside (s.status p) = true))

def GoesOn (cfg : Config) (s : State) : Prop :=
  exists p, (step cfg s (Label.atom p ())).isSome = true ∨
    (step cfg s (Label.finish p)).isSome = true

theorem status_inside (size : Int) (view : View) :
    Status.inside (view.status size) = view.inside := by
  cases view with
  | idle => rfl
  | dead request => rfl
  | working mode request point =>
      cases point with
      | seeErrno taken => cases taken <;> rfl
      | done outcome locked => cases locked <;> rfl
      | access index => cases request <;> rfl
      | _ => rfl

theorem Moves.leaves {cfg : Config} {s : State} {view view' : View} {l : Label}
    {kernel : Kernel} {returned : List (Request × Outcome)}
    (h : Moves cfg s l view view' kernel returned)
    (hstatus : s.status l.actor = view.status (cfg.size l.actor))
    (hinside : view.inside = true) (hout : view'.inside = false)
    (hflag : kernel.val Sem.flag = s.kernel.val Sem.flag) : Loses s l := by
  cases h with
  | begins => cases hinside
  | finishes => cases hinside
  | dies hcall =>
      rename_i p call
      change Status.inside (s.status p) = true
      have hsame : s.status p = view.status (cfg.size p) := hstatus
      rw [hsame, status_inside]
      exact hinside
  | advances hadvance =>
      rename_i p mode request point point'
      have hsame : s.status p =
          (View.working mode request point).status (cfg.size p) := hstatus
      rcases hadvance.flag with ⟨hkeeps, _⟩ | ⟨hbefore, _⟩ | ⟨_, _, hup⟩
      · have hcontra : point'.inside = true := hkeeps.trans hinside
        have hno : point'.inside = false := hout
        rw [hcontra] at hno
        cases hno
      · have hyes : point.inside = true := hinside
        rw [hbefore] at hyes
        cases hyes
      · rcases hup with hup | ⟨_, hpoint, herrno⟩
        · lia
        · refine ⟨?_, ?_, herrno⟩
          · rw [hsame, status_inside]
            exact hinside
          · rw [hsame, hpoint]
            rfl

theorem Moves.of_loses {cfg : Config} {s : State} {view view' : View}
    {l : Label} {kernel : Kernel} {returned : List (Request × Outcome)}
    (h : Moves cfg s l view view' kernel returned)
    (hstatus : s.status l.actor = view.status (cfg.size l.actor))
    (hloses : Loses s l) :
    view.inside = true ∧ view'.inside = false ∧
      kernel.val Sem.flag = s.kernel.val Sem.flag := by
  cases h with
  | begins => exact hloses.elim
  | finishes => exact hloses.elim
  | dies hcall =>
      rename_i p call
      have hinside : Status.inside (s.status p) = true := hloses
      have hsame : s.status p = view.status (cfg.size p) := hstatus
      rw [hsame, status_inside] at hinside
      exact ⟨hinside, rfl, rfl⟩
  | advances hadvance =>
      rename_i p mode request point point'
      rcases hloses with ⟨hinside, hop, herrno⟩
      have hsame : s.status p =
          (View.working mode request point).status (cfg.size p) := hstatus
      rw [hsame, status_inside] at hinside
      rw [hsame] at hop
      cases hadvance with
      | gaveUp _ => exact ⟨hinside, rfl, rfl⟩
      | sawNone hno => exact absurd herrno hno
      | store => cases hop
      | load => cases hop
      | _ => cases hop

/-- `flag` is up, or somebody is inside who will post it. -/
def Keeping (cfg : Config) (s : State) : Prop :=
  exists view, Held cfg s view ∧
    (s.kernel.val Sem.flag = 0 -> exists p, (view p).inside = true)

def Losing (cfg : Config) (s : State) : Prop :=
  exists view, Held cfg s view ∧ s.kernel.val Sem.flag = 0 ∧
    forall p, (view p).inside = false

theorem Losing.lost {cfg : Config} {s : State} (h : Losing cfg s) : Lost s := by
  rcases h with ⟨view, hheld, hflag, hnone⟩
  refine ⟨hflag, fun p => ?_⟩
  rw [hheld.status p, status_inside]
  exact hnone p

theorem Keeping.not_lost {cfg : Config} {s : State} (h : Keeping cfg s) :
    ¬ Lost s := by
  rcases h with ⟨view, hheld, hsome⟩
  rintro ⟨hflag, hnone⟩
  rcases hsome hflag with ⟨p, hinside⟩
  have hno := hnone p
  rw [hheld.status p, status_inside, hinside] at hno
  cases hno

theorem keeping_step {cfg : Config} {s s' : State} {l : Label}
    (h : Keeping cfg s) (hlocks : LocksFlag l) (hkeeps : ¬ Loses s l)
    (hstep : step cfg s l = some s') : Keeping cfg s' := by
  rcases h with ⟨view, hheld, hsome⟩
  rcases step_moves hheld hlocks hstep with ⟨view', hmoves, hstatus, _⟩
  refine ⟨_, held_step hheld hlocks hmoves rfl hstatus, ?_⟩
  intro hflag
  rcases hmoves.flag hlocks with ⟨hsame, _⟩ | ⟨_, hin, _⟩ | ⟨_, _, hup⟩
  · rcases hsome (hsame.symm.trans hflag) with ⟨p, hinside⟩
    by_cases hp : p = l.actor
    · refine ⟨p, ?_⟩
      rw [hp, Function.update_self]
      cases hafter : view'.inside with
      | true => rfl
      | false =>
          rw [hp] at hinside
          exact absurd (hmoves.leaves (hheld.status l.actor) hinside hafter
            hsame) hkeeps
    · exact ⟨p, by rw [Function.update_of_ne hp]; exact hinside⟩
  · exact ⟨l.actor, by rw [Function.update_self]; exact hin⟩
  · lia

theorem losing_of_loses {cfg : Config} {s s' : State} {l : Label}
    (h : Keeping cfg s) (hlocks : LocksFlag l) (hloses : Loses s l)
    (hstep : step cfg s l = some s') : Losing cfg s' := by
  rcases h with ⟨view, hheld, hsome⟩
  rcases step_moves hheld hlocks hstep with ⟨view', hmoves, hstatus, _⟩
  rcases hmoves.of_loses (hheld.status l.actor) hloses with
    ⟨hinside, hout, hflag⟩
  refine ⟨_, held_step hheld hlocks hmoves rfl hstatus, ?_, ?_⟩
  · rw [hflag]
    exact hheld.taken l.actor hinside
  · intro p
    by_cases hp : p = l.actor
    · rw [hp, Function.update_self]
      exact hout
    · rw [Function.update_of_ne hp]
      cases hother : (view p).inside with
      | false => rfl
      | true => exact absurd (hheld.single p l.actor hother hinside) hp

theorem losing_step {cfg : Config} {s s' : State} {l : Label}
    (h : Losing cfg s) (hlocks : LocksFlag l)
    (hstep : step cfg s l = some s') :
    Losing cfg s' ∧ s'.kernel.memory = s.kernel.memory ∧
      s'.kernel.val Sem.count = s.kernel.val Sem.count := by
  rcases h with ⟨view, hheld, hflag, hnone⟩
  rcases step_moves hheld hlocks hstep with ⟨view', hmoves, hstatus, _⟩
  rcases hmoves.effect_on_others.right (hnone l.actor) with ⟨hcount, hmemory⟩
  refine ⟨⟨_, held_step hheld hlocks hmoves rfl hstatus, ?_, ?_⟩, hmemory,
    hcount⟩
  · rcases hmoves.flag hlocks with ⟨hsame, _⟩ | ⟨_, _, hfree, _⟩ | ⟨hin, _⟩
    · exact hsame.trans hflag
    · exact absurd hflag hfree
    · rw [hnone l.actor] at hin
      cases hin
  · intro p
    by_cases hp : p = l.actor
    · rw [hp, Function.update_self]
      cases hafter : view'.inside with
      | false => rfl
      | true =>
          rcases hmoves.flag hlocks with
            ⟨_, hbefore⟩ | ⟨_, _, hfree, _⟩ | ⟨_, hout, _⟩
          · rw [hnone l.actor] at hbefore
            exact absurd (hbefore hafter) (by decide)
          · exact absurd hflag hfree
          · rw [hafter] at hout
            cases hout
    · rw [Function.update_of_ne hp]
      exact hnone p

theorem losing_run {cfg : Config} {s t : State} {labels : List Label}
    (h : Losing cfg s) (hlocks : forall l, l ∈ labels -> LocksFlag l)
    (hrun : run (step cfg) s labels = some t) :
    Losing cfg t ∧ t.kernel.memory = s.kernel.memory ∧
      t.kernel.val Sem.count = s.kernel.val Sem.count := by
  apply run_invariant (fun t => Losing cfg t ∧
    t.kernel.memory = s.kernel.memory ∧
    t.kernel.val Sem.count = s.kernel.val Sem.count) _ ⟨h, rfl, rfl⟩
    (allSteps_of_mem hlocks s) hrun
  intro mid l mid' hmid hguard hstep
  rcases hmid with ⟨hlosing, hmemory, hcount⟩
  rcases losing_step hlosing hguard hstep with ⟨hnext, hmemory', hcount'⟩
  exact ⟨hnext, hmemory'.trans hmemory, hcount'.trans hcount⟩

/-!
## Going on

A call that is not waiting for `flag` can always make its next step.
-/

theorem step_atom_isSome {cfg : Config} {s : State} {p : Pid}
    {mode : Mode} {request : Request} {op : Op}
    {next : op.Res -> Prog Outcome} {locked : Bool}
    (hstatus : s.status p =
      Status.running mode request (Program.call op next) locked)
    (hexec : (s.kernel.exec cfg.slots p op).isSome = true) :
    (step cfg s (Label.atom p ())).isSome = true := by
  rcases Option.isSome_iff_exists.mp hexec with ⟨⟨answer, kernel⟩, hanswered⟩
  have hexec' : cfg.callers.exec () p op s.kernel = some (answer, kernel) :=
    hanswered
  exact Option.isSome_iff_exists.mpr
    ⟨_, (Callers.Step.operates hstatus hexec').step_eq⟩

theorem exec_semPost (slots : Nat) (p : Pid) (sem : Sem) (k : Kernel) :
    (k.exec slots p (Op.semPost sem)).isSome = true := by
  simp only [Kernel.exec]
  split <;> rfl

theorem Held.inside_segment {cfg : Config} {s : State} {view : Pid -> View}
    {p : Pid} {mode : Mode} {request : Request} {index : Int}
    (h : Held cfg s view)
    (hview : view p = View.working mode request (Point.access index)) :
    0 ≤ index ∧ index < cfg.slots := by
  have hfacts := h.facts p
  rw [hview] at hfacts
  cases request with
  | push val =>
      have hsize := cfg.size_le_slots p
      rcases hfacts with ⟨hindex, hless⟩
      lia
  | pop =>
      rcases hfacts with ⟨hindex, hless⟩
      lia

theorem running_goes_on {cfg : Config} {s : State} {view : Pid -> View}
    {p : Pid} {mode : Mode} {request : Request} {point : Point} (h : Held cfg s view)
    (hview : view p = View.working mode request point)
    (hwait : point = Point.wait -> s.kernel.val Sem.flag ≠ 0) :
    GoesOn cfg s := by
  have hstatus := h.status p
  have hfacts := h.facts p
  rw [hview] at hstatus hfacts
  refine ⟨p, ?_⟩
  cases point with
  | wait =>
      refine Or.inl (step_atom_isSome hstatus ?_)
      rw [Kernel.exec, if_neg (hwait rfl)]
      rfl
  | tryWait =>
      refine Or.inl (step_atom_isSome hstatus ?_)
      simp only [Kernel.exec]
      split <;> rfl
  | seeErrno taken => exact Or.inl (step_atom_isSome hstatus rfl)
  | check => exact Or.inl (step_atom_isSome hstatus rfl)
  | failRelease =>
      exact Or.inl (step_atom_isSome hstatus (exec_semPost _ p Sem.flag _))
  | takeCount =>
      refine Or.inl (step_atom_isSome hstatus ?_)
      cases request with
      | push val => exact hfacts.elim
      | pop =>
          have hsome : s.kernel.val Sem.count ≠ 0 := hfacts
          rw [Kernel.exec, if_neg hsome]
          rfl
  | slot => exact Or.inl (step_atom_isSome hstatus rfl)
  | access index =>
      have hindex := h.inside_segment hview
      cases request with
      | push val =>
          refine Or.inl (step_atom_isSome hstatus ?_)
          rw [Kernel.exec, if_pos hindex]
          rfl
      | pop =>
          refine Or.inl (step_atom_isSome hstatus ?_)
          rw [Kernel.exec, if_pos hindex]
          rfl
  | commit =>
      exact Or.inl (step_atom_isSome hstatus (exec_semPost _ p Sem.count _))
  | release out =>
      exact Or.inl (step_atom_isSome hstatus (exec_semPost _ p Sem.flag _))
  | done outcome locked =>
      have hdoes : Callers.Step cfg.callers s (Label.finish p) _ :=
        Callers.Step.finishes hstatus
      exact Or.inr (Option.isSome_iff_exists.mpr ⟨_, hdoes.step_eq⟩)

theorem Keeping.goes_on {cfg : Config} {s : State} (h : Keeping cfg s) {p : Pid}
    {mode : Mode} {request : Request} {code : Prog Outcome} {locked : Bool}
    (hrunning : s.status p = Status.running mode request code locked) :
    GoesOn cfg s := by
  rcases h with ⟨view, hheld, hsome⟩
  by_cases hflag : s.kernel.val Sem.flag = 0
  · rcases hsome hflag with ⟨q, hinside⟩
    cases hview : view q with
    | idle =>
        rw [hview] at hinside
        cases hinside
    | dead call =>
        rw [hview] at hinside
        cases hinside
    | working mode' request' point =>
        apply running_goes_on hheld hview
        intro hpoint
        rw [hview, hpoint] at hinside
        cases hinside
  · rcases status_running ((hheld.status p).symm.trans hrunning) with
      ⟨point, hview, _, _⟩
    exact running_goes_on hheld hview (fun _ => hflag)

theorem keeping_start (cfg : Config) : Keeping cfg cfg.start :=
  ⟨_, (ordered_start cfg).held, fun hcontra => by cases hcontra⟩

/-- `flag` is lost exactly in the runs in which a process is killed inside or
gives up inside for an old `EAGAIN`.  Then the stack never changes again;
as long as it has not happened, the calls in progress go on. -/
theorem old_flag_lost {cfg : Config} {labels : List Label} {s : State}
    (hlocks : forall l, l ∈ labels -> LocksFlag l)
    (hrun : run (step cfg) cfg.start labels = some s) :
    (Lost s <->
        ¬ AllSteps (step cfg) (fun s l => ¬ Loses s l) cfg.start labels) ∧
      (Lost s -> forall more t, (forall l, l ∈ more -> LocksFlag l) ->
        run (step cfg) s more = some t ->
        Lost t ∧ t.kernel.memory = s.kernel.memory ∧
          t.kernel.val Sem.count = s.kernel.val Sem.count) ∧
      (¬ Lost s -> forall p mode request code locked,
        s.status p = Status.running mode request code locked -> GoesOn cfg s) := by
  have hsplit := run_splits_assuming (Keeping cfg) (Losing cfg)
    (fun _ _ _ hs hlock hkeeps hstep => keeping_step hs hlock hkeeps hstep)
    (fun _ _ _ hs hlock hbreaks hstep =>
      losing_of_loses hs hlock (Classical.not_not.mp hbreaks) hstep)
    (fun _ _ _ hs hlock hstep => (losing_step hs hlock hstep).left)
    (keeping_start cfg) (allSteps_of_mem hlocks cfg.start) hrun
  rcases hsplit with ⟨hall, hkeeping⟩ | ⟨hno, hlosing⟩
  · refine ⟨⟨fun hlost => absurd hlost hkeeping.not_lost,
      fun hcontra => absurd hall hcontra⟩,
      fun hlost => absurd hlost hkeeping.not_lost, ?_⟩
    intro _ p mode request code locked hrunning
    exact hkeeping.goes_on hrunning
  · refine ⟨⟨fun _ => hno, fun _ => hlosing.lost⟩, ?_,
      fun hcontra => absurd hlosing.lost hcontra⟩
    intro _ more t hmore hrest
    rcases losing_run hlosing hmore hrest with ⟨hlost, hsame⟩
    exact ⟨hlost.lost, hsame⟩

/-- The second call of process 1 finds the `EAGAIN` of its first one: it takes
`flag`, which is free by then, and returns -1. -/
def oldErrno : List Label :=
  [Label.begin 2 ⟨0, 0⟩ (Request.push 7), Label.atom 2 (),
    Label.begin 1 ⟨-1, 0⟩ (Request.push 5), Label.atom 1 (),
    Label.atom 1 (), Label.finish 1] ++
    List.replicate 5 (Label.atom 2 ()) ++
    [Label.finish 2, Label.begin 1 ⟨-1, EAGAIN⟩ (Request.push 5),
      Label.atom 1 (), Label.atom 1 ()]

theorem old_flag_lost_errno :
    exists s, run (step twoSlots) twoSlots.start oldErrno = some s ∧
      Lost s := by
  have hsome : (run (step twoSlots) twoSlots.start oldErrno).isSome = true := by
    decide +kernel
  rcases Option.isSome_iff_exists.mp hsome with ⟨s, hrun⟩
  have hno : ¬ AllSteps (step twoSlots) (fun s l => ¬ Loses s l)
      twoSlots.start oldErrno := by
    decide +kernel
  exact ⟨s, hrun, (old_flag_lost (by decide) hrun).left.mpr hno⟩

end StackOld
end UnixPrograms
