import UnixPrograms.Stack.Linearizability
import UnixPrograms.Stack.Sequential

/-!
# What every run of the shared stack guarantees

The invariant of the previous module is read back as the three promises:
FLAG is balanced by the processes inside, the content of the segment is the
replay of one order whenever FLAG is free, and a call that has changed
anything does not fail.  At the ceiling of COUNT the second promise breaks,
and one process alone can break it.
-/

namespace UnixPrograms
namespace Stack

open Foundation
open Ipc

/-!
## From the invariant to the promises
-/

section Promises

variable {cfg : Config} {m : Machine} {seg : Segment} {set : SemSet}
  {owner : Option Pid} {order : List (Pid × LifoOp Ptr)}

theorem linInv_fresh (hfresh : Fresh cfg (m.toState cfg))
    (hidle : forall p, m.view p = View.idle) : LinInv cfg m := by
  refine ⟨lockInv_fresh hfresh hidle, ?_⟩
  rcases hfresh.segment with ⟨seg, hseg, hmarked⟩
  rcases hfresh.set with ⟨set, hset, hcount, _, _⟩
  refine ⟨seg, set, [], hseg, hmarked, hset, ?_, ?_, ?_, ?_⟩
  · rw [hcount]
    rfl
  · intro p
    have hreturned : m.returned p = [] := hfresh.returned p
    rw [hidle p, hreturned]
    rfl
  · intro p
    rw [hidle p]
    trivial
  · intro p
    rw [hidle p]
    exact fun hd => hd

theorem toState_locked (cfg : Config) (m : Machine) (p : Pid) :
    ((m.toState cfg).status p).locked = (m.view p).locked := by
  rw [toState_status rfl]
  cases m.view p <;> rfl

theorem flagBalanced_of_alive (hset : m.kernel.sets cfg.semId = some set)
    (h : Alive cfg m set owner) : FlagBalanced cfg (m.toState cfg) := by
  refine ⟨set, owner.toList, hset, ?_, ?_, ?_⟩
  · cases owner <;> simp
  · intro p
    rw [toState_locked, h.locked p, ← h.owner p]
    cases owner with
    | none => simp
    | some q => simp [eq_comm]
  · rw [h.flag]
    cases owner <;> rfl

theorem pending_eq_recorded (cfg : Config) (p : Pid)
    (hout : (m.view p).inside = false) :
    Status.pending ((m.toState cfg).status p) = (m.view p).recorded := by
  rw [toState_status rfl]
  cases hview : m.view p with
  | working timeoutFlag request point locked =>
      rw [hview] at hout
      cases point with
      | acquire => rfl
      | done outcome => rfl
      | _ => cases hout
  | destroying timeoutFlag point => cases point <;> rfl
  | _ => rfl

theorem lifoOrder_of_linear (hlock : Alive cfg m set owner)
    (h : Linear cfg m seg set order)
    (hfree : FlagFree cfg (m.toState cfg)) :
    LifoOrder cfg (m.toState cfg) := by
  have hout : forall p, (m.view p).inside = false := by
    intro p
    rcases hfree with ⟨set', hset', hflag⟩
    have hsame : set' = set := by
      have heq := hset'.symm.trans h.hasSet
      injection heq
    subst hsame
    cases hin : (m.view p).inside with
    | false => rfl
    | true =>
        have howner := (hlock.owner p).mpr hin
        rw [hlock.flag, howner] at hflag
        cases hflag
  refine ⟨seg, set, order, h.hasSegment, h.hasSet, hlock.low, h.replay, ?_⟩
  intro p
  have hsettled : (m.toState cfg).settled p =
      (m.returned p).filterMap effect ++ (m.view p).recorded := by
    rw [State.settled, pending_eq_recorded cfg p (hout p)]
    rfl
  rw [hsettled]
  have hagrees := h.agrees p
  cases hview : m.view p with
  | dead call =>
      rw [hview] at hagrees
      cases hagrees with
      | inl hshare => exact Or.inl (by simpa [View.recorded] using hshare)
      | inr hshare =>
          rcases hshare with ⟨op, hop, hshare⟩
          refine Or.inr ⟨call, op, ?_, hop, ?_⟩
          · exact toState_status hview
          · simpa [View.recorded] using hshare
  | idle =>
      rw [hview] at hagrees
      exact Or.inl hagrees
  | working _ _ _ _ =>
      rw [hview] at hagrees
      exact Or.inl hagrees
  | destroying _ _ =>
      rw [hview] at hagrees
      exact Or.inl hagrees

end Promises

/-!
## A call that has changed something does not fail

Behind the slot write and behind the change of COUNT a call can only return 0 or
die, so that a call which returns -1 has changed nothing.
-/

def View.Settling : View -> Prop
  | View.working _ _ (Point.commit _) _ => True
  | View.working _ _ (Point.release _) _ => True
  | View.working _ _ (Point.done outcome) _ => outcome.ret = 0
  | View.dead _ => True
  | _ => False

section Silence

variable {cfg : Config} {m m' : Machine} {p : Pid} {l : Label}
  {seg : Segment} {set : SemSet} {order : List (Pid × LifoOp Ptr)}

theorem settling_step (hstep : PointStep cfg m l m')
    (hview : (m.view p).Settling) (hfinish : l ≠ Label.finish p) :
    (m'.view p).Settling := by
  have hother : forall (q : Pid) (view : View), q ≠ p ->
      ((m.setView q view).view p).Settling := by
    intro q view hq
    rw [Machine.setView_view_of_ne m view (Ne.symm hq)]
    exact hview
  cases hstep with
  | beginRequest hidle hattached =>
      rename_i q timeoutFlag request
      by_cases hq : q = p
      · subst hq
        rw [hidle] at hview
        cases hview
      · exact hother q _ hq
  | beginDestruct hidle hattached =>
      rename_i q timeoutFlag
      by_cases hq : q = p
      · subst hq
        rw [hidle] at hview
        cases hview
      · exact hother q _ hq
  | advance hworking hadvance =>
      rename_i q removed timeoutFlag request point point' locked locked' kernel
      by_cases hq : q = p
      · subst hq
        rw [hworking] at hview
        change ((m.setView q _).view q).Settling
        rw [Machine.setView_view_self]
        cases hadvance with
        | commit _ => trivial
        | release _ => rfl
        | _ => cases hview
      · exact hother q _ hq
  | dismantle hdestroying hdismantle =>
      rename_i q removed timeoutFlag point point' kernel
      by_cases hq : q = p
      · subst hq
        rw [hdestroying] at hview
        cases hview
      · exact hother q _ hq
  | die hlabel hcall =>
      rename_i q call
      by_cases hq : q = p
      · subst hq
        change ((m.setView q _).view q).Settling
        rw [Machine.setView_view_self]
        trivial
      · exact hother q _ hq
  | finishRequest hdone =>
      rename_i q timeoutFlag request outcome locked
      by_cases hq : q = p
      · subst hq
        exact absurd rfl hfinish
      · exact hother q _ hq
  | finishDestruct hdone =>
      rename_i q timeoutFlag
      by_cases hq : q = p
      · subst hq
        exact absurd rfl hfinish
      · exact hother q _ hq

theorem not_touches {s s' : State} {seg' : Segment} {set' : SemSet}
    (hseg : s.kernel.segs cfg.shmemId = some seg)
    (hseg' : s'.kernel.segs cfg.shmemId = some seg')
    (hset : s.kernel.sets cfg.semId = some set)
    (hset' : s'.kernel.sets cfg.semId = some set')
    (hmemory : seg'.memory = seg.memory)
    (hcount : set'.val SEM_COUNT = set.val SEM_COUNT) :
    ¬ Touches cfg s s' := by
  intro htouches
  cases htouches with
  | inl hslots => exact hslots (by simp [hseg, hseg', hmemory])
  | inr hvalue => exact hvalue (by simp [hset, hset', hcount])

theorem settling_of_touches {removed : Removed} {timeoutFlag : Int}
    {request : Request} {point point' : Point} {locked locked' : Bool}
    {kernel : Kernel} {s' : State} (h : Linear cfg m seg set order)
    (hadvance : Advance removed p timeoutFlag (cfg.handle p) request point
      locked m.kernel point' locked' kernel)
    (hkernel : s'.kernel = kernel)
    (htouches : Touches cfg (m.toState cfg) s') :
    (View.working timeoutFlag request point' locked').Settling := by
  have hflag : forall {semOp : Int} {flags : SemFlags} {answer : Answer},
      m.kernel.semop removed p cfg.semId SEM_FLAG semOp flags =
        some (answer, kernel) -> False := by
    intro semOp flags answer hop
    rcases flag_call_quiet h.hasSet hop with ⟨hsegs, set', hset', hcount⟩
    have hseg' : s'.kernel.segs cfg.shmemId = some seg := by
      rw [hkernel, hsegs]
      exact h.hasSegment
    rw [← hkernel] at hset'
    exact not_touches h.hasSegment hseg' h.hasSet hset' rfl hcount htouches
  have hread : forall {answer : Answer},
      m.kernel.getval removed p cfg.semId SEM_COUNT = (answer, kernel) ->
        False := by
    intro answer hop
    have hsame := (getval_quiet h.hasSet hop).right
    have hsame' : s'.kernel = m.kernel := hkernel.trans hsame
    have hseg' : s'.kernel.segs cfg.shmemId = some seg := by
      rw [hsame']
      exact h.hasSegment
    have hset' : s'.kernel.sets cfg.semId = some set := by
      rw [hsame']
      exact h.hasSet
    exact not_touches h.hasSegment hseg' h.hasSet hset' rfl rfl htouches
  cases hadvance with
  | acquire hop => exact (hflag hop).elim
  | check hop => exact (hread hop).elim
  | failRelease hop => exact (hflag hop).elim
  | slot hop => exact (hread hop).elim
  | write _ => trivial
  | read hseg =>
      refine absurd htouches
        (not_touches h.hasSegment ?_ h.hasSet ?_ rfl rfl)
      · rw [hkernel]
        exact h.hasSegment
      · rw [hkernel]
        exact h.hasSet
  | commit _ => trivial
  | release hop => exact (hflag hop).elim

theorem failuresAreSilent_of_linInv (h : LinInv cfg m) :
    FailuresAreSilent cfg (m.toState cfg) := by
  intro p removed s' labels t timeoutFlag call outcome locked hstep htouches
    hrun hfinish hstatus
  rcases h with ⟨_, seg, set, order, hlinear⟩
  rcases step_point hstep with ⟨m', hs', hpoint⟩
  subst hs'
  have hsettling : (m'.view p).Settling := by
    cases hpoint with
    | advance hview hadvance =>
        have hdone := settling_of_touches hlinear hadvance rfl htouches
        change ((m.setView p _).view p).Settling
        rw [Machine.setView_view_self]
        exact hdone
    | dismantle hview _ =>
        have hno := hlinear.noDestruct p
        rw [hview] at hno
        exact absurd trivial hno
    | die hlabel hcall =>
        rename_i q call'
        rcases hlabel with hlabel | ⟨removed', hlabel⟩
        · cases hlabel
        · cases hlabel
          change ((m.setView p _).view p).Settling
          rw [Machine.setView_view_self]
          trivial
  have hlabels : forall l, l ∈ labels -> l ≠ Label.finish p := by
    intro l hl heq
    rw [heq] at hl
    exact hfinish hl
  rcases machine_invariant
    (fun _ _ _ hview hl hstep => settling_step hstep hview hl)
    hsettling (allSteps_of_mem hlabels _) hrun with
    ⟨m'', ht, hview⟩
  subst ht
  rw [toState_status rfl] at hstatus
  cases hv : m''.view p with
  | working timeoutFlag' request point locked' =>
      rw [hv] at hstatus hview
      injection hstatus with _ _ hcode _
      rw [point_code_eq_ret hcode] at hview
      exact hview
  | idle =>
      rw [hv] at hstatus
      cases hstatus
  | destroying _ _ =>
      rw [hv] at hview
      cases hview
  | dead _ =>
      rw [hv] at hstatus
      cases hstatus

end Silence

/-!
## Every run
-/

section Runs

variable {cfg : Config} {s0 s : State} {labels : List Label}

/-- In every run from a new stack in which no push raises COUNT past the
ceiling of a semaphore, FLAG is balanced, its freedom means that one order
explains the stack, and failing calls change nothing. -/
theorem shared_stack_linearizable (hfresh : Fresh cfg s0)
    (hsteps : AllSteps (step cfg) (StackSteps cfg) s0 labels)
    (hrun : run (step cfg) s0 labels = some s) :
    FlagBalanced cfg s ∧ (FlagFree cfg s -> LifoOrder cfg s) ∧
      FailuresAreSilent cfg s := by
  rcases fresh_machine hfresh with ⟨m0, hs0, hidle, _⟩
  subst hs0
  rcases machine_invariant (fun _ _ _ h hguard hstep =>
    linInv_step h hguard hstep) (linInv_fresh hfresh hidle) hsteps hrun with
    ⟨m, hs, hinv⟩
  subst hs
  rcases hinv with ⟨hlock, seg, set, order, hlinear⟩
  rcases hlock set hlinear.hasSet with ⟨owner, halive⟩
  exact ⟨flagBalanced_of_alive hlinear.hasSet halive,
    lifoOrder_of_linear halive hlinear,
    failuresAreSilent_of_linInv ⟨hlock, seg, set, order, hlinear⟩⟩

theorem belowCeiling_of_sizes {m : Machine}
    (hsizes : forall p, cfg.size p ≤ SEMVMX) (hlock : LockInv cfg m)
    (l : Label) : BelowCeiling cfg (m.toState cfg) l := by
  cases l with
  | atom p removed =>
      intro timeoutFlag call code locked set hstatus hop hset
      rcases hlock set hset with ⟨owner, halive⟩
      rw [toState_status rfl] at hstatus
      have hfacts := halive.facts p
      cases hview : m.view p with
      | working timeoutFlag' request point locked' =>
          rw [hview] at hstatus hfacts
          injection hstatus with _ _ hcode _
          subst hcode
          cases point with
          | commit out =>
              cases request with
              | push val =>
                  have hlt : set.val SEM_COUNT < cfg.size p := hfacts
                  have hsize := hsizes p
                  lia
              | pop => cases hop
          | access index => cases request <;> cases hop
          | _ => cases hop
      | destroying timeoutFlag' point =>
          rw [hview] at hstatus
          injection hstatus with _ _ hcode _
          subst hcode
          cases point <;> cases hop
      | idle =>
          rw [hview] at hstatus
          cases hstatus
      | dead _ =>
          rw [hview] at hstatus
          cases hstatus
  | _ => trivial

theorem stackSteps_of_linInv (hsizes : forall p, cfg.size p ≤ SEMVMX)
    (hlabels : forall l, l ∈ labels -> NoDestruct l) {m : Machine}
    (h : LinInv cfg m) :
    AllSteps (step cfg) (StackSteps cfg) (m.toState cfg) labels := by
  induction labels generalizing m with
  | nil => trivial
  | cons l rest ih =>
      have hguard : StackSteps cfg (m.toState cfg) l :=
        ⟨hlabels l List.mem_cons_self, belowCeiling_of_sizes hsizes h.left l⟩
      refine ⟨hguard, ?_⟩
      intro s' hstep
      rcases step_point hstep with ⟨m', hs', hpoint⟩
      subst hs'
      exact ih (fun l' hl' => hlabels l' (List.mem_cons_of_mem l hl'))
        (linInv_step h hguard hpoint)

theorem stackSteps_of_sizes (hsizes : forall p, cfg.size p ≤ SEMVMX)
    (hfresh : Fresh cfg s0)
    (hlabels : forall l, l ∈ labels -> NoDestruct l) :
    AllSteps (step cfg) (StackSteps cfg) s0 labels := by
  rcases fresh_machine hfresh with ⟨m0, hs0, hidle, _⟩
  subst hs0
  exact stackSteps_of_linInv hsizes hlabels (linInv_fresh hfresh hidle)

def newStackOf (shmmax bytes : Nat) (attached : List Pid) : State where
  kernel :=
    { Kernel.empty shmmax with
      segs := Function.update (fun _ => none) 1
        (some { Segment.new 5 bytes with attached := attached })
      sets := Function.update (fun _ => none) 1
        (some
          { SemSet.new 5 with
            val := Function.update (fun _ => 0) SEM_FLAG 1 }) }
  status := fun _ => Status.idle
  returned := fun _ => []

theorem newStackOf_fresh (size : Pid -> Int) (shmmax bytes : Nat)
    (attached : List Pid) :
    Fresh { size := size, shmemId := 1, semId := 1 }
      (newStackOf shmmax bytes attached) where
  idle := fun _ => rfl
  returned := fun _ => rfl
  errno := by
    intro p herr
    cases herr
  segment := ⟨_, rfl, rfl⟩
  set := ⟨_, rfl, rfl, rfl, fun _ _ => rfl⟩

def newStack (attached : List Pid) : State :=
  newStackOf 65536 32768 attached

theorem newStack_fresh (size : Pid -> Int) (attached : List Pid) :
    Fresh { size := size, shmemId := 1, semId := 1 } (newStack attached) :=
  newStackOf_fresh size 65536 32768 attached

def eightSlots : Config where
  size := fun _ => 8
  shmemId := 1
  semId := 1

def killedPush : List Label :=
  [Label.begin 1 0 (Call.request (Request.push 7))] ++
    List.replicate 5 (Label.atom 1 Removed.einval) ++
    [Label.kill 1, Label.begin 2 (-1) (Call.request Request.pop)] ++
    List.replicate 6 (Label.atom 2 Removed.einval) ++
    [Label.finish 2]

theorem shared_stack_linearizable_killed :
    exists s, run (step eightSlots) (newStack [1, 2]) killedPush = some s ∧
      FlagFree eightSlots s ∧ LifoOrder eightSlots s := by
  have hsize : (8 : Int) ≤ SEMVMX := by
    decide
  have hlabels : forall l, l ∈ killedPush -> NoDestruct l := by
    intro l hl
    simp [killedPush] at hl
    rcases hl with h | h | h | h | h | h <;> subst h <;> trivial
  have hfresh : Fresh eightSlots (newStack [1, 2]) := newStack_fresh _ _
  have hrun : exists s,
      run (step eightSlots) (newStack [1, 2]) killedPush = some s ∧
        FlagFree eightSlots s := ⟨_, rfl, _, rfl, rfl⟩
  rcases hrun with ⟨s, hrun, hfree⟩
  have hall := shared_stack_linearizable hfresh
    (stackSteps_of_sizes (fun _ => hsize) hfresh hlabels) hrun
  exact ⟨s, hrun, hfree, hall.right.left hfree⟩

end Runs

/-!
## One process at the ceiling

A process that pushes on its own, as a run of the system.
-/

section Ceiling

variable {cfg : Config} {s : State} {p : Pid} {removed : Removed}
  {timeoutFlag : Int} {call : Call} {locked : Bool} {kernel : Kernel}

def State.moved (s : State) (p : Pid) (timeoutFlag : Int) (call : Call)
    (code : Prog Outcome) (locked : Bool) (kernel : Kernel) : State :=
  { s.setStatus p (Status.running timeoutFlag call code locked) with
    kernel := kernel }

theorem run_moved (code : Prog Outcome) {op : Op}
    {next : op.Res -> Prog Outcome} {answer : op.Res} {kernel' : Kernel}
    {rest : List Label} {Ends : State -> Prop}
    (hexec : kernel.exec removed p op = some (answer, kernel'))
    (hnext : next answer = code)
    (hrest : forall locked', exists s',
      run (step cfg) (s.moved p timeoutFlag call code locked' kernel') rest =
        some s' ∧ Ends s') :
    exists s',
      run (step cfg)
          (s.moved p timeoutFlag call (Program.call op next) locked kernel)
          (Label.atom p removed :: rest) = some s' ∧ Ends s' := by
  have hstep : step cfg
      (s.moved p timeoutFlag call (Program.call op next) locked kernel)
      (Label.atom p removed) =
        some
          (s.moved p timeoutFlag call (next answer)
            (lockedAfter cfg.semId locked op answer) kernel') := by
    have hrunning : (s.moved p timeoutFlag call (Program.call op next) locked
        kernel).status p =
        Status.running timeoutFlag call (Program.call op next) locked :=
      Function.update_self _ _ _
    have hdoes : Callers.Step cfg.callers _ (Label.atom p removed) _ :=
      Callers.Step.operates hrunning hexec
    refine hdoes.step_eq.trans ?_
    simp [State.moved, CallState.setStatus, Config.callers]
  rw [run_cons_of_step _ hstep, hnext]
  exact hrest _

def pushLabels (p : Pid) (val : Ptr) : List Label :=
  Label.begin p 0 (Call.request (Request.push val)) ::
    (List.replicate 6 (Label.atom p Removed.einval) ++ [Label.finish p])

structure Lone (cfg : Config) (s : State) (p : Pid) (val : Ptr)
    (c : Contents) (n : Nat) : Prop where
  holds : Holds s.kernel p (cfg.handle p) c 1
  low : 0 ≤ c.count
  status : s.status = fun _ => Status.idle
  returned : s.returned =
    Function.update (fun _ => []) p
      (List.replicate n
        (Call.request (Request.push val), { ret := 0, out := none }))

theorem run_pushLabels {val : Ptr} {c : Contents} {n : Nat}
    (h : Lone cfg s p val c n) (hroom : c.count < cfg.size p) :
    exists s', run (step cfg) s (pushLabels p val) = some s' ∧
      Lone cfg s' p val (c.write val).raise (n + 1) := by
  rcases h.holds.flag_call Removed.einval (flagFlags 0) (-1) (by decide)
    (by decide) with ⟨a1, k1, hacquire, hret, hk1⟩
  rcases hk1.getval Removed.einval with ⟨a2, hread, hcount, herr⟩
  rcases hk1.store Removed.einval val with ⟨k2, hstore, hk2⟩
  rcases hk2.count_raise Removed.einval h.low with ⟨a3, k3, hraise, hk3⟩
  rcases hk3.flag_call Removed.einval (flagFlags 0) 1 (by decide)
    (by decide) with ⟨a4, k4, hrelease, _, hk4⟩
  let call : Call := Call.request (Request.push val)
  have hbegin : step cfg s (Label.begin p 0 call) =
      some
        (s.moved p 0 call
          (Point.acquireCode 0 (cfg.handle p) (Request.push val)) false
          s.kernel) := by
    rcases h.holds.segment with ⟨seg, hseg, _, hattached⟩
    have hmapped : Attached cfg s.kernel p = true := by
      have hseg' : s.kernel.segs cfg.shmemId = some seg := hseg
      rw [Attached, hseg']
      exact hattached
    have hidle : s.status p = Status.idle := by
      rw [h.status]
    have hcode : cfg.callers.code p 0 call =
        Point.acquireCode 0 (cfg.handle p) (Request.push val) :=
      request_code_eq 0 (cfg.handle p) (Request.push val)
    have hdoes : Callers.Step cfg.callers s (Label.begin p 0 call) _ :=
      Callers.Step.begins hidle (if_pos hmapped)
    refine hdoes.step_eq.trans ?_
    rw [hcode]
    rfl
  have href : (Request.push val).refuses (cfg.handle p).size c.count =
      false := decide_eq_false (Int.not_le.mpr hroom)
  have hlabels : pushLabels p val =
      Label.begin p 0 call ::
        (List.replicate 6 (Label.atom p Removed.einval) ++
          [Label.finish p]) := rfl
  rw [hlabels, run_cons_of_step _ hbegin]
  refine run_moved (Point.checkCode 0 (cfg.handle p) (Request.push val))
    hacquire (if_pos hret) (fun _ => ?_)
  refine run_moved (Point.slotCode 0 (cfg.handle p) (Request.push val))
    hread (by rw [if_neg herr, hcount, href, if_neg (by decide)])
    (fun _ => ?_)
  refine run_moved
    (Point.accessCode 0 (cfg.handle p) (Request.push val) c.count)
    hread (by rw [if_neg herr, hcount]) (fun _ => ?_)
  refine run_moved (Point.commitCode 0 (cfg.handle p) (Request.push val) none)
    hstore rfl (fun _ => ?_)
  refine run_moved
    (Point.releaseCode 0 (cfg.handle p) { ret := 0, out := none })
    hraise rfl (fun _ => ?_)
  refine run_moved (Program.ret { ret := 0, out := none })
    hrelease rfl (fun _ => ?_)
  refine ⟨{ kernel := k4, status := fun _ => Status.idle,
            returned := Function.update (fun _ => []) p
              (List.replicate (n + 1)
                (call, { ret := 0, out := none })) }, ?_, hk4, ?_, rfl, rfl⟩
  · simp [run, step, Callers.step, State.moved, CallState.setStatus,
      h.returned, h.status, List.replicate_succ']
    rfl
  · have hlow := h.low
    change 0 ≤ (c.write val).raise.count
    by_cases hceiling : c.count < SEMVMX <;>
      simp only [Contents.raise, Contents.write, hceiling, if_true, if_false] <;>
      lia

theorem run_many_pushes {val : Ptr} (hsize : SEMVMX < cfg.size p) (k : Nat)
    {c : Contents} {n : Nat} (h : Lone cfg s p val c n)
    (hhigh : c.count ≤ SEMVMX) :
    exists s' c',
      run (step cfg) s (List.replicate k (pushLabels p val)).flatten = some s' ∧
        Lone cfg s' p val c' (n + k) ∧
        c'.count = min SEMVMX (c.count + k) := by
  induction k generalizing s c n with
  | zero => exact ⟨s, c, rfl, h, by simp; lia⟩
  | succ k ih =>
      rcases run_pushLabels h (by lia) with ⟨s1, hfirst, h1⟩
      have hcount : (c.write val).raise.count = min SEMVMX (c.count + 1) := by
        by_cases hceiling : c.count < SEMVMX <;>
          simp only [Contents.raise, Contents.write, hceiling, if_true,
            if_false] <;> lia
      rcases ih h1 (by lia) with ⟨s2, c2, hrest, h2, hcount2⟩
      refine ⟨s2, c2, ?_, ?_, by lia⟩
      · rw [List.replicate_succ, List.flatten_cons]
        exact run_append hfirst hrest
      · have hn : n + (k + 1) = n + 1 + k := by
          lia
        rw [hn]
        exact h2

theorem content_length (memory : Int -> Ptr) (n : Nat) :
    (content memory n).length = n := by
  induction n with
  | zero => rfl
  | succ n ih => simp [content, ih]

theorem Lone.count_of_lifoOrder {val : Ptr} {c : Contents} {n : Nat}
    (h : Lone cfg s p val c n) (horder : LifoOrder cfg s) : c.count = n := by
  rcases horder with ⟨seg, set, order, _, hset, hlow, hreplay, hshare⟩
  have hprojection : forall q, projection q order = s.settled q := by
    intro q
    cases hshare q with
    | inl hsettled => exact hsettled
    | inr hdead =>
        rcases hdead with ⟨call, _, hstatus, _⟩
        rw [h.status] at hstatus
        cases hstatus
  have hothers : forall q, q ≠ p -> projection q order = [] := by
    intro q hq
    rw [hprojection q, State.settled, h.status, h.returned,
      Function.update_of_ne hq]
    rfl
  have hown : projection p order = List.replicate n (LifoOp.push val) := by
    rw [hprojection p, State.settled, h.status, h.returned,
      Function.update_self]
    simp [effect, Status.pending]
  rw [map_snd_eq_projection hothers, hown] at hreplay
  have hlength := Lifo.replay_length hreplay
  rcases h.holds.set with ⟨set', hset', hcount, _⟩
  have hsame : set' = set := by
    have heq := hset'.symm.trans hset
    injection heq
  subst hsame
  rw [content_length] at hlength
  simp at hlength
  lia

def pastCeiling : Config where
  size := fun _ => 32768
  shmemId := 1
  semId := 1

def wideStack : State :=
  newStackOf 262144 262144 [1]

/-- After 32768 pushes of one process that all return 0, no order of them
explains the 32767 elements of the stack, although every slot is one of the
segment. -/
theorem pushes_without_place :
    Fresh pastCeiling wideStack ∧
      (exists seg, wideStack.kernel.segs pastCeiling.shmemId = some seg ∧
        forall p, 8 * pastCeiling.size p ≤ seg.size) ∧
      exists s,
        run (step pastCeiling) wideStack
            (List.replicate 32768 (pushLabels 1 7)).flatten = some s ∧
          FlagFree pastCeiling s ∧ ¬ LifoOrder pastCeiling s := by
  have hslots : (8 : Int) * 32768 ≤ 262144 := by
    decide
  refine ⟨newStackOf_fresh _ _ _ _, ⟨_, rfl, fun _ => hslots⟩, ?_⟩
  have hnew : Lone pastCeiling wideStack 1 7
      { count := 0, memory := fun _ => 0 } 0 := by
    refine ⟨⟨⟨_, rfl, rfl, rfl⟩, ⟨_, rfl, rfl, rfl⟩, ?_⟩, by decide, rfl, ?_⟩
    · intro herr
      cases herr
    · exact (Function.update_eq_self 1 _).symm
  rcases run_many_pushes (by decide) 32768 hnew (by decide) with
    ⟨s, c, hrun, hlone, hcount⟩
  refine ⟨s, hrun, ?_, ?_⟩
  · rcases hlone.holds.set with ⟨set, hset, _, hflag⟩
    exact ⟨set, hset, hflag⟩
  · intro horder
    rw [hlone.count_of_lifoOrder horder] at hcount
    exact absurd hcount (by decide)

end Ceiling

end Stack
end UnixPrograms
