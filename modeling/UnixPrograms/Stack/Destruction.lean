import UnixPrograms.Stack.Guarantees

/-!
# Slot indices while the stack is being removed

`push` and `pop` read COUNT once for their test and once more for the index,
and `mark_destruct` can remove the set between any two of their calls.  The
index is in range as long as the reading that becomes the index is not the -1
of a removed set that the kernel reports with `EINVAL`, which `get_count`
does not look for, and as long as a pop does not meet more elements than its
own handle has slots, which `pop` does not test.
-/

namespace UnixPrograms
namespace Stack

open Foundation
open Ipc

def slotIndex : Prog Outcome -> Option Int
  | Program.call (Op.store _ index _) _ => some index
  | Program.call (Op.load _ index) _ => some index
  | _ => none

def SlotsInRange (cfg : Config) (s : State) : Prop :=
  forall p timeoutFlag call code locked index,
    s.status p = Status.running timeoutFlag call code locked ->
    slotIndex code = some index -> 0 ≤ index ∧ index < cfg.size p

/-- The next operation reads COUNT, and what it reads becomes an index. -/
def ReadsIndex : Prog Outcome -> Prop
  | Program.call (Op.getval _ _) next =>
      exists answer, (slotIndex (next answer)).isSome = true
  | _ => False

/-- The reading that becomes an index is not a removed set's `EINVAL`, and a
pop finds no more elements than its handle has slots. -/
def GoodReading (cfg : Config) (s : State) : Label -> Prop
  | Label.atom p removed =>
      forall timeoutFlag call code locked,
        s.status p = Status.running timeoutFlag call code locked ->
        ReadsIndex code ->
        (s.kernel.sets cfg.semId = none -> removed = Removed.eidrm) ∧
          (call = Call.request Request.pop ->
            forall set, s.kernel.sets cfg.semId = some set ->
              set.val SEM_COUNT ≤ cfg.size p)
  | _ => True

/-!
## The index of a process between its reading and its access

The reading of COUNT that becomes the index is the second one of a call.  From
then on the index is part of the point.
-/

def Request.slot : Request -> Int -> Int
  | Request.push _, count => count
  | Request.pop, count => count - 1

def View.InRange (size : Int) : View -> Prop
  | View.working _ request (Point.access count) _ =>
      0 ≤ request.slot count ∧ request.slot count < size
  | _ => True

section Index

variable {cfg : Config} {m m' : Machine} {l : Label}

theorem readsIndex_slot (timeoutFlag : Int) (stack : StackT)
    (request : Request) :
    ReadsIndex (Point.slotCode timeoutFlag stack request) := by
  refine ⟨{ ret := 0, errno := Errno.unset }, ?_⟩
  cases request <;> rfl

theorem inRange_slot {p : Pid} {removed : Removed} {timeoutFlag : Int}
    {request : Request} {locked : Bool} {answer : Answer} {kernel : Kernel}
    (hlock : LockInv cfg m)
    (hguard : GoodReading cfg (m.toState cfg) (Label.atom p removed))
    (hview : m.view p =
      View.working timeoutFlag request Point.slot locked)
    (hop : m.kernel.getval removed p cfg.semId SEM_COUNT =
      (answer, kernel)) :
    (View.working timeoutFlag request
      (if answer.errno = Errno.eidrm then Point.ended (Exit.exit 1)
        else Point.access answer.ret) locked).InRange (cfg.size p) := by
  have hgood := hguard timeoutFlag (Call.request request) _ locked
    (toState_status hview) (readsIndex_slot _ _ _)
  cases hset : m.kernel.sets cfg.semId with
  | none =>
      rw [getval_none removed p SEM_COUNT hset] at hop
      have hanswer : answer = (m.kernel.fail p removed.errno).1 :=
        (congrArg Prod.fst hop).symm
      have hremoved : removed = Removed.eidrm := hgood.left hset
      have herr : (m.kernel.fail p removed.errno).1.errno = Errno.eidrm := by
        rw [hremoved]
        rfl
      rw [hanswer, if_pos herr]
      trivial
  | some set =>
      rcases hlock set hset with ⟨owner, halive⟩
      have hfacts := halive.facts p
      rw [hview] at hfacts
      rw [getval_some removed p SEM_COUNT hset] at hop
      injection hop with hanswer _
      subst hanswer
      have herr : (m.kernel.ok p (set.val SEM_COUNT)).errno ≠ Errno.eidrm :=
        halive.errno_of_working hview
      rw [if_neg herr]
      have hlow := halive.low
      cases request with
      | push val =>
          have hlt : set.val SEM_COUNT < cfg.size p := hfacts
          exact ⟨hlow, hlt⟩
      | pop =>
          have hpos : 0 < set.val SEM_COUNT := hfacts
          have hle := hgood.right rfl set hset
          simp only [View.InRange, Request.slot, Kernel.ok_ret]
          lia

theorem inRange_step (hlock : LockInv cfg m)
    (hrange : forall p, (m.view p).InRange (cfg.size p))
    (hguard : GoodReading cfg (m.toState cfg) l)
    (hstep : PointStep cfg m l m') :
    forall p, (m'.view p).InRange (cfg.size p) := by
  have hset : forall (q : Pid) (view : View),
      view.InRange (cfg.size q) ->
        forall p, ((m.setView q view).view p).InRange (cfg.size p) := by
    intro q view hview p
    by_cases hp : p = q
    · subst hp
      rw [Machine.setView_view_self]
      exact hview
    · rw [Machine.setView_view_of_ne m view hp]
      exact hrange p
  cases hstep with
  | beginRequest hview hattached =>
      refine hset _ _ ?_
      unfold startPoint
      split <;> trivial
  | beginDestruct hview hattached => exact hset _ _ trivial
  | advance hview hadvance =>
      refine hset _ _ ?_
      cases hadvance with
      | slot hop => exact inRange_slot hlock hguard hview hop
      | acquire hop => split <;> trivial
      | check hop =>
          split
          · trivial
          · split <;> trivial
      | _ => trivial
  | dismantle hview hdismantle => exact hset _ _ trivial
  | die hlabel hcall => exact hset _ _ trivial
  | finishRequest hview => exact hset _ _ trivial
  | finishDestruct hview => exact hset _ _ trivial

theorem slotsInRange_of_views
    (h : forall p, (m.view p).InRange (cfg.size p)) :
    SlotsInRange cfg (m.toState cfg) := by
  intro p timeoutFlag call code locked index hstatus hindex
  rw [toState_status rfl] at hstatus
  have hrange := h p
  cases hview : m.view p with
  | working timeoutFlag' request point locked' =>
      rw [hview] at hstatus hrange
      injection hstatus with _ _ hcode _
      subst hcode
      cases point with
      | access count =>
          cases request with
          | push val =>
              injection hindex with hindex
              subst hindex
              exact hrange
          | pop =>
              injection hindex with hindex
              subst hindex
              exact hrange
      | _ => cases hindex
  | destroying timeoutFlag' point =>
      rw [hview] at hstatus
      injection hstatus with _ _ hcode _
      subst hcode
      cases point <;> cases hindex
  | idle =>
      rw [hview] at hstatus
      cases hstatus
  | dead _ =>
      rw [hview] at hstatus
      cases hstatus

end Index

section Runs

variable {cfg : Config} {s0 s : State} {labels : List Label}

theorem slotsInRange_of_readings (hfresh : Fresh cfg s0)
    (hsteps : AllSteps (step cfg) (GoodReading cfg) s0 labels)
    (hrun : run (step cfg) s0 labels = some s) : SlotsInRange cfg s := by
  rcases fresh_machine hfresh with ⟨m0, hs0, hidle, _⟩
  subst hs0
  have hstart : LockInv cfg m0 ∧
      forall p, (m0.view p).InRange (cfg.size p) := by
    refine ⟨lockInv_fresh hfresh hidle, ?_⟩
    intro p
    rw [hidle p]
    trivial
  rcases machine_invariant (fun _ _ _ h hguard hstep =>
    And.intro (lockInv_step h.left hstep)
      (inRange_step h.left h.right hguard hstep)) hstart hsteps hrun with
    ⟨m, hs, _, hrange⟩
  subst hs
  exact slotsInRange_of_views hrange

/-- Whoever pushes, pops and removes the stack in whatever order: good
readings give indices inside the handle. -/
theorem slots_in_range (hfresh : Fresh cfg s0)
    (hsteps : AllSteps (step cfg) (GoodReading cfg) s0 labels)
    (hrun : run (step cfg) s0 labels = some s) : SlotsInRange cfg s :=
  slotsInRange_of_readings hfresh hsteps hrun

end Runs

/-!
## Handles of one size

When every handle has the size of the stack, COUNT never exceeds it, and only
the reports of removed sets matter.
-/

def CountWithin (cfg : Config) (size : Int) (k : Kernel) : Prop :=
  forall set, k.sets cfg.semId = some set -> set.val SEM_COUNT ≤ size

def ReportsEidrm : Label -> Prop
  | Label.atom _ removed => removed = Removed.eidrm
  | _ => True

section EqualSizes

variable {cfg : Config} {size : Int} {m m' : Machine} {l : Label}
  {s0 : State} {labels : List Label}

theorem countWithin_of_sets {k k' : Kernel} (h : CountWithin cfg size k)
    (hsets : k'.sets = k.sets) : CountWithin cfg size k' := by
  intro set hset
  rw [hsets] at hset
  exact h set hset

theorem countWithin_semop {k k' : Kernel} {removed : Removed} {p : Pid}
    {semNum : Nat} {semOp : Int} {flags : SemFlags} {answer : Answer}
    (h : CountWithin cfg size k)
    (hop : k.semop removed p cfg.semId semNum semOp flags =
      some (answer, k'))
    (hcount : forall set, k.sets cfg.semId = some set ->
      (set.apply p semNum semOp flags.undo).val SEM_COUNT ≤ size) :
    CountWithin cfg size k' := by
  cases semop_result hop with
  | gone _ => exact countWithin_of_sets h rfl
  | refused _ _ _ _ _ => exact countWithin_of_sets h rfl
  | applied set hset _ _ =>
      intro set' hset'
      rw [Kernel.setSem_sets_self] at hset'
      injection hset' with hset'
      subst hset'
      exact hcount set hset

theorem countWithin_flag {k k' : Kernel} {removed : Removed} {p : Pid}
    {semOp : Int} {flags : SemFlags} {answer : Answer}
    (h : CountWithin cfg size k)
    (hop : k.semop removed p cfg.semId SEM_FLAG semOp flags =
      some (answer, k')) : CountWithin cfg size k' := by
  refine countWithin_semop h hop ?_
  intro set hset
  rw [SemSet.apply_val_of_ne _ _ _ _ flag_ne_count.symm]
  exact h set hset

theorem countWithin_getval {k k' : Kernel} {removed : Removed} {p : Pid}
    {answer : Answer} (h : CountWithin cfg size k)
    (hop : k.getval removed p cfg.semId SEM_COUNT = (answer, k')) :
    CountWithin cfg size k' := by
  have hk : k' = (k.getval removed p cfg.semId SEM_COUNT).2 := by
    rw [hop]
  subst hk
  cases hset : k.sets cfg.semId with
  | none =>
      rw [getval_none removed p SEM_COUNT hset]
      exact countWithin_of_sets h rfl
  | some set =>
      rw [getval_some removed p SEM_COUNT hset]
      exact h

theorem countWithin_step (hsizes : forall p, cfg.size p = size)
    (hlock : LockInv cfg m) (h : CountWithin cfg size m.kernel)
    (hstep : PointStep cfg m l m') : CountWithin cfg size m'.kernel := by
  cases hstep with
  | beginRequest hview hattached => exact h
  | beginDestruct hview hattached => exact h
  | advance hview hadvance =>
      rename_i p removed timeoutFlag request point point' locked locked' kernel
      cases hadvance with
      | acquire hop => exact countWithin_flag h hop
      | check hop => exact countWithin_getval h hop
      | failRelease hop => exact countWithin_flag h hop
      | slot hop => exact countWithin_getval h hop
      | write hseg => exact countWithin_of_sets h rfl
      | read hseg => exact h
      | release hop => exact countWithin_flag h hop
      | commit hop =>
          refine countWithin_semop h hop ?_
          intro set hset
          rcases hlock set hset with ⟨owner, halive⟩
          have hfacts := halive.facts p
          rw [hview] at hfacts
          have hle := h set hset
          rw [SemSet.apply_val_self]
          cases request with
          | push val =>
              have hlt : set.val SEM_COUNT < cfg.size p := hfacts
              rw [hsizes p] at hlt
              simp only [Request.delta]
              lia
          | pop =>
              simp only [Request.delta]
              lia
  | dismantle hview hdismantle =>
      rename_i p removed timeoutFlag point point' kernel
      cases hdismantle with
      | segment hop =>
          have hk : kernel =
              (m.kernel.shmRmid removed p (cfg.handle p).shmemId).2 := by
            rw [hop]
          subst hk
          refine countWithin_of_sets h ?_
          unfold Kernel.shmRmid
          cases m.kernel.segs (cfg.handle p).shmemId <;> rfl
      | set hop =>
          have hk : kernel =
              (m.kernel.semRmid removed p cfg.semId).2 := by
            rw [show m.kernel.semRmid removed p cfg.semId = _ from hop]
          subst hk
          intro set hset
          unfold Kernel.semRmid at hset
          cases hold : m.kernel.sets cfg.semId with
          | none =>
              simp only [hold, Kernel.fail_sets] at hset
              cases hset
          | some old => simp [hold, Kernel.setSem] at hset
  | die hlabel hcall =>
      rename_i p call
      intro set hset
      change (m.kernel.exit p).sets cfg.semId = some set at hset
      rw [Kernel.exit_sets] at hset
      rcases Option.map_eq_some_iff.mp hset with ⟨old, hold, hundo⟩
      subst hundo
      rcases hlock old hold with ⟨owner, halive⟩
      have hle := h old hold
      have hlow := halive.low
      rw [SemSet.undo_val, halive.adjCount p]
      lia
  | finishRequest hview => exact h
  | finishDestruct hview => exact h

theorem goodReading_of_machine (hsizes : forall p, cfg.size p = size)
    (hlabels : forall l, l ∈ labels -> ReportsEidrm l)
    (hlock : LockInv cfg m) (h : CountWithin cfg size m.kernel) :
    AllSteps (step cfg) (GoodReading cfg) (m.toState cfg) labels := by
  induction labels generalizing m with
  | nil => trivial
  | cons l rest ih =>
      constructor
      · cases l with
        | atom p removed =>
            intro timeoutFlag call code locked hstatus hreads
            refine ⟨fun _ => hlabels _ List.mem_cons_self, ?_⟩
            intro hpop set hset
            rw [hsizes p]
            exact h set hset
        | _ => trivial
      · intro s' hstep
        rcases step_point hstep with ⟨m', hs', hpoint⟩
        subst hs'
        exact ih (fun l' hl' => hlabels l' (List.mem_cons_of_mem l hl'))
          (lockInv_step hlock hpoint)
          (countWithin_step hsizes hlock h hpoint)

/-- Equal handles and a kernel that reports removal with `EIDRM`: every run
has good readings. -/
theorem goodReading_of_equal_sizes (hpos : 0 ≤ size)
    (hsizes : forall p, cfg.size p = size) (hfresh : Fresh cfg s0)
    (hlabels : forall l, l ∈ labels -> ReportsEidrm l) :
    AllSteps (step cfg) (GoodReading cfg) s0 labels := by
  rcases fresh_machine hfresh with ⟨m0, hs0, hidle, _⟩
  subst hs0
  refine goodReading_of_machine hsizes hlabels (lockInv_fresh hfresh hidle) ?_
  intro set hset
  rcases hfresh.set with ⟨set', hset', hcount, _⟩
  have hsame : some set' = some set := hset'.symm.trans hset
  injection hsame with hsame
  subst hsame
  rw [hcount]
  exact hpos

def removedUnderPush (removed : Removed) (reads : Nat) : List Label :=
  [Label.begin 1 0 (Call.request (Request.push 7)), Label.atom 1 removed,
    Label.begin 2 0 Call.markDestruct, Label.atom 2 removed,
    Label.atom 2 removed] ++ List.replicate reads (Label.atom 1 removed)

theorem slots_in_range_removed :
    exists s,
      run (step eightSlots) (newStack [1, 2])
          (removedUnderPush Removed.eidrm 2) = some s ∧
        SlotsInRange eightSlots s := by
  have hfresh : Fresh eightSlots (newStack [1, 2]) := newStack_fresh _ _
  have hlabels : forall l, l ∈ removedUnderPush Removed.eidrm 2 ->
      ReportsEidrm l := by
    intro l hl
    simp [removedUnderPush] at hl
    rcases hl with h | h | h | h | h <;> subst h <;> trivial
  have hrun : exists s,
      run (step eightSlots) (newStack [1, 2])
        (removedUnderPush Removed.eidrm 2) = some s := ⟨_, rfl⟩
  rcases hrun with ⟨s, hrun⟩
  exact ⟨s, hrun, slots_in_range hfresh
    (goodReading_of_equal_sizes (by decide) (fun _ => rfl) hfresh hlabels)
    hrun⟩

/-- With `EINVAL` both readings of COUNT are -1, the test lets the push pass,
and it writes below the segment. -/
theorem push_writes_below :
    Fresh eightSlots (newStack [1, 2]) ∧
      exists s s' code,
        run (step eightSlots) (newStack [1, 2])
            (removedUnderPush Removed.einval 2) = some s ∧
          s.status 1 =
            Status.running 0 (Call.request (Request.push 7)) code true ∧
          slotIndex code = some (-1) ∧
          step eightSlots s (Label.atom 1 Removed.einval) = some s' ∧
          ¬ SlotsInRange eightSlots s := by
  refine ⟨newStack_fresh _ _, _, _, _, rfl, rfl, rfl, rfl, ?_⟩
  intro hrange
  exact absurd (hrange 1 _ _ _ _ (-1) rfl rfl).left (by decide)

end EqualSizes

end Stack
end UnixPrograms
