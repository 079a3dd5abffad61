import UnixPrograms.Stack.Guarantees

/-!
# Calls in wait mode 0

In mode 0 a call waits for the lock only.  It meets a full or an empty stack
behind the lock, where it gives up; it returns 0 as long as it takes the lock
while there is room for its push or an element for its pop.
-/

namespace UnixPrograms
namespace Stack

open Foundation
open Ipc

structure Existing (cfg : Config) (s : State) : Prop where
  idle : forall p, s.status p = Status.idle
  returned : forall p, s.returned p = []
  errno : forall p, s.kernel.errno p ≠ Errno.eidrm
  set : exists set, s.kernel.sets cfg.semId = some set ∧
    0 ≤ set.val SEM_COUNT ∧ set.val SEM_COUNT ≤ SEMVMX ∧
    set.val SEM_FLAG = 1 ∧ forall p semNum, set.adj p semNum = 0

def InfiniteWait : Label -> Prop
  | Label.begin _ timeoutFlag call =>
      timeoutFlag = 0 ∧ call ≠ Call.markDestruct
  | _ => True

/-- A push that takes the lock finds COUNT below the size of its handle, and a
pop that takes it finds COUNT above 0. -/
def FindsWork (cfg : Config) (s : State) : Label -> Prop
  | Label.atom p _ =>
      match s.status p, s.kernel.sets cfg.semId with
      | Status.running timeoutFlag (Call.request request) code _, some set =>
          code.nextOp =
              some (Op.semop cfg.semId SEM_FLAG (-1) (flagFlags timeoutFlag)) ->
            set.val SEM_FLAG = 1 ->
              request.refuses (cfg.size p) (set.val SEM_COUNT) = false
      | _, _ => True
  | _ => True

instance (cfg : Config) (s : State) (l : Label) :
    Decidable (FindsWork cfg s l) :=
  match l with
  | Label.atom p _ =>
      show Decidable
        (match s.status p, s.kernel.sets cfg.semId with
        | Status.running timeoutFlag (Call.request request) code _, some set =>
            code.nextOp =
                some (Op.semop cfg.semId SEM_FLAG (-1) (flagFlags timeoutFlag)) ->
              set.val SEM_FLAG = 1 ->
                request.refuses (cfg.size p) (set.val SEM_COUNT) = false
        | _, _ => True) from
      match s.status p, s.kernel.sets cfg.semId with
      | Status.running _ (Call.request _) _ _, some _ =>
          inferInstanceAs (Decidable (_ -> _ -> _))
      | Status.running _ (Call.request _) _ _, none =>
          inferInstanceAs (Decidable True)
      | Status.running _ Call.markDestruct _ _, _ =>
          inferInstanceAs (Decidable True)
      | Status.idle, _ => inferInstanceAs (Decidable True)
      | Status.dead _, _ => inferInstanceAs (Decidable True)
  | Label.begin _ _ _ => inferInstanceAs (Decidable True)
  | Label.finish _ => inferInstanceAs (Decidable True)
  | Label.kill _ => inferInstanceAs (Decidable True)

/-- What `set_wait` promises for mode 0. -/
structure Waits (cfg : Config) (s : State) : Prop where
  /-- No call has given up. -/
  served : forall p entry, entry ∈ s.returned p -> entry.2.ret = 0
  /-- A call that sleeps does not hold the lock; another running call does. -/
  free : forall p timeoutFlag call locked removed semNum semOp flags next,
    s.status p =
      Status.running timeoutFlag call
        (Program.call (Op.semop cfg.semId semNum semOp flags) next) locked ->
    s.kernel.semop removed p cfg.semId semNum semOp flags = none ->
    locked = false ∧
      exists q timeoutFlag' call' code,
        s.status q = Status.running timeoutFlag' call' code true

/-!
## Calls on their way

In mode 0 a call waits in front of FLAG only.  A holder that has found work is
never kept waiting inside, and will return 0.  The other calls do not change
COUNT before they hold FLAG themselves.
-/

def Point.Served (size count : Int) (request : Request) : Point -> Prop
  | Point.check => request.refuses size count = false
  | Point.failRelease => False
  | Point.done outcome => outcome.ret = 0
  | _ => True

def View.Served (size count : Int) : View -> Prop
  | View.working timeoutFlag request point _ =>
      timeoutFlag = 0 ∧ point.Served size count request
  | View.destroying _ _ => False
  | _ => True

theorem View.Served.congr {size count count' : Int} {view : View}
    (h : view.Served size count) (hinside : view.inside = false) :
    view.Served size count' := by
  cases view with
  | working timeoutFlag request point locked =>
      cases point with
      | acquire => exact h
      | done outcome => exact h
      | check | failRelease | slot | access _ | commit _ | release _
      | ended _ => cases hinside
  | idle => trivial
  | destroying timeoutFlag point => cases h
  | dead call => trivial

structure Serving (cfg : Config) (m : Machine) : Prop where
  lock : LockInv cfg m
  exist : (m.kernel.sets cfg.semId).isSome = true
  views : forall set, m.kernel.sets cfg.semId = some set ->
    forall p, (m.view p).Served (cfg.size p) (set.val SEM_COUNT)
  returned : forall p entry, entry ∈ m.returned p -> entry.2.ret = 0

section Steps

variable {cfg : Config} {m m' : Machine} {p : Pid} {removed : Removed}
  {timeoutFlag : Int} {request : Request} {point : Point} {locked : Bool}
  {kernel : Kernel} {answer : Answer}

theorem Serving.others {set set' : SemSet} {owner : Option Pid} {view : View}
    (h : Serving cfg m) (hset : m.kernel.sets cfg.semId = some set)
    (halive : Alive cfg m set owner)
    (hcount : set'.val SEM_COUNT = set.val SEM_COUNT ∨ owner = some p)
    (hview : view.Served (cfg.size p) (set'.val SEM_COUNT)) (q : Pid) :
    ((m.setView p view).view q).Served (cfg.size q) (set'.val SEM_COUNT) := by
  by_cases hq : q = p
  · rw [hq, Machine.setView_view_self]
    exact hview
  · rw [Machine.setView_view_of_ne m view hq]
    have hold := h.views set hset q
    rcases hcount with hsame | howner
    · rw [hsame]
      exact hold
    · apply hold.congr
      cases hinside : (m.view q).inside with
      | false => rfl
      | true =>
          have hboth := (halive.owner q).mpr hinside
          rw [howner] at hboth
          injection hboth with hboth
          exact absurd hboth.symm hq

theorem acquired {set : SemSet} {owner : Option Pid} {flags : SemFlags}
    (halive : Alive cfg m set owner)
    (hset : m.kernel.sets cfg.semId = some set)
    (hflags : flags.nowait = false ∧ flags.timed = false)
    (hop : m.kernel.semop removed p cfg.semId SEM_FLAG (-1) flags =
      some (answer, kernel)) :
    set.val SEM_FLAG = 1 ∧ answer.ret = 0 ∧
      exists set', kernel.sets cfg.semId = some set' ∧
        set'.val SEM_COUNT = set.val SEM_COUNT := by
  have hflag : set.val SEM_FLAG = 1 := by
    by_contra hdown
    have hzero : set.val SEM_FLAG = 0 := by
      have hvalue := halive.flag
      split at hvalue
      · exact absurd hvalue hdown
      · exact hvalue
    simp only [Kernel.semop, hset, hzero, hflags.left, hflags.right] at hop
    cases hop
  rw [semop_applied removed p flags hset (by rw [hflag]; decide)
    (by rw [hflag]; decide)] at hop
  cases hop
  exact ⟨hflag, rfl, _, Kernel.setSem_sets_self _ _ _,
    SemSet.apply_val_of_ne _ _ _ _ (by decide)⟩

theorem semop_sets {set : SemSet} {semNum : Nat} {semOp : Int}
    {flags : SemFlags} (hset : m.kernel.sets cfg.semId = some set)
    (hop : m.kernel.semop removed p cfg.semId semNum semOp flags =
      some (answer, kernel)) :
    exists set', kernel.sets cfg.semId = some set' ∧
      (semNum ≠ SEM_COUNT -> set'.val SEM_COUNT = set.val SEM_COUNT) := by
  cases semop_result hop with
  | gone hgone =>
      rw [hset] at hgone
      cases hgone
  | refused set' e _ _ _ => exact ⟨set, hset, fun _ => rfl⟩
  | applied set' hset' _ _ =>
      rw [hset] at hset'
      injection hset' with hset'
      rw [← hset']
      exact ⟨_, Kernel.setSem_sets_self _ _ _,
        fun hne => SemSet.apply_val_of_ne _ _ _ _ (Ne.symm hne)⟩

theorem serving_advance {point' : Point} {locked' : Bool}
    (h : Serving cfg m)
    (hguard : FindsWork cfg (m.toState cfg) (Label.atom p removed))
    (hview : m.view p = View.working timeoutFlag request point locked)
    (hadvance : Advance removed p timeoutFlag (cfg.handle p) request point
      locked m.kernel point' locked' kernel) :
    exists set set' owner, m.kernel.sets cfg.semId = some set ∧
      kernel.sets cfg.semId = some set' ∧ Alive cfg m set owner ∧
      (set'.val SEM_COUNT = set.val SEM_COUNT ∨ owner = some p) ∧
      (View.working timeoutFlag request point' locked').Served (cfg.size p)
        (set'.val SEM_COUNT) := by
  rcases Option.isSome_iff_exists.mp h.exist with ⟨set, hset⟩
  rcases h.lock set hset with ⟨owner, halive⟩
  have hself := h.views set hset p
  rw [hview] at hself
  rcases hself with ⟨hmode, hpoint⟩
  have hflags : (flagFlags timeoutFlag).nowait = false ∧
      (flagFlags timeoutFlag).timed = false := by
    rw [hmode]
    exact ⟨rfl, rfl⟩
  cases hadvance with
  | acquire hop =>
      rcases acquired halive hset hflags hop with
        ⟨hfree, hret, set', hset', hcount⟩
      refine ⟨set, set', owner, hset, hset', halive, Or.inl hcount, hmode, ?_⟩
      have hset0 : (m.toState cfg).kernel.sets cfg.semId = some set := hset
      simp only [FindsWork, toState_status hview, View.status, hset0] at hguard
      rw [if_pos hret, hcount]
      exact hguard rfl hfree
  | check hop =>
      have hread : m.kernel.getval removed p cfg.semId SEM_COUNT = _ := hop
      rw [getval_some removed p SEM_COUNT hset] at hread
      injection hread with hanswer hkernel
      have hpasses : request.refuses (cfg.handle p).size
          (set.val SEM_COUNT) = false := hpoint
      rw [← hkernel]
      refine ⟨set, set, owner, hset, hset, halive, Or.inl rfl, hmode, ?_⟩
      split
      · trivial
      · rw [← hanswer, Kernel.ok_ret, hpasses, if_neg (by decide)]
        trivial
  | failRelease hop => cases hpoint
  | slot hop =>
      have hread : m.kernel.getval removed p cfg.semId SEM_COUNT = _ := hop
      rw [getval_some removed p SEM_COUNT hset] at hread
      injection hread with hanswer hkernel
      rw [← hkernel]
      refine ⟨set, set, owner, hset, hset, halive, Or.inl rfl, hmode, ?_⟩
      split <;> trivial
  | write hseg =>
      exact ⟨set, set, owner, hset, hset, halive, Or.inl rfl, hmode, trivial⟩
  | read hseg =>
      exact ⟨set, set, owner, hset, hset, halive, Or.inl rfl, hmode, trivial⟩
  | commit hop =>
      rcases semop_sets hset hop with ⟨set', hset', _⟩
      exact ⟨set, set', owner, hset, hset', halive,
        Or.inr (halive.owner_of_inside hview rfl).left, hmode, trivial⟩
  | release hop =>
      rcases semop_sets hset hop with ⟨set', hset', hcount⟩
      exact ⟨set, set', owner, hset, hset', halive,
        Or.inl (hcount (by decide)), hmode, rfl⟩

theorem Serving.quiet {view : View} {returned : Pid -> List (Call × Outcome)}
    (h : Serving cfg m) (hlock : LockInv cfg
      { m.setView p view with returned := returned })
    (hview : forall count, view.Served (cfg.size p) count)
    (hreturned : forall q entry, entry ∈ returned q -> entry.2.ret = 0) :
    Serving cfg { m.setView p view with returned := returned } where
  lock := hlock
  exist := h.exist
  views := by
    intro set hset
    rcases h.lock set hset with ⟨owner, halive⟩
    exact h.others hset halive (Or.inl rfl) (hview _)
  returned := hreturned

theorem serving_step {l : Label} (h : Serving cfg m)
    (hmode : InfiniteWait l) (hguard : FindsWork cfg (m.toState cfg) l)
    (hstep : PointStep cfg m l m') : Serving cfg m' := by
  have hlock := lockInv_step h.lock hstep
  cases hstep with
  | beginRequest hview hattached =>
      refine h.quiet hlock ?_ h.returned
      intro count
      rw [hmode.left]
      exact ⟨rfl, trivial⟩
  | beginDestruct hview hattached => exact absurd rfl hmode.right
  | advance hview hadvance =>
      rcases serving_advance h hguard hview hadvance with
        ⟨set, set', owner, hset, hset', halive, hcount, hserved⟩
      refine ⟨hlock, ?_, ?_, h.returned⟩
      · rw [Option.isSome_iff_exists]
        exact ⟨set', hset'⟩
      · intro set1 hset1
        have heq : some set' = some set1 := hset'.symm.trans hset1
        injection heq with heq
        rw [← heq]
        exact h.others hset halive hcount hserved
  | dismantle hview hdismantle =>
      rcases Option.isSome_iff_exists.mp h.exist with ⟨set, hset⟩
      rename_i p _ _ _ _ _
      have hself := h.views set hset p
      rw [hview] at hself
      cases hself
  | die hlabel hcall =>
      rename_i p call
      rcases Option.isSome_iff_exists.mp h.exist with ⟨set, hset⟩
      rcases h.lock set hset with ⟨owner, halive⟩
      have hset' : (m.kernel.exit p).sets cfg.semId = some (set.undo p) := by
        rw [Kernel.exit_sets, hset]
        rfl
      have hcount : (set.undo p).val SEM_COUNT = set.val SEM_COUNT := by
        have hlow := halive.low
        have hhigh := halive.high
        rw [SemSet.undo_val, halive.adjCount p]
        lia
      refine ⟨hlock, ?_, ?_, h.returned⟩
      · rw [Option.isSome_iff_exists]
        exact ⟨_, hset'⟩
      · intro set1 hset1
        have heq : some (set.undo p) = some set1 := hset'.symm.trans hset1
        injection heq with heq
        rw [← heq]
        exact h.others hset halive (Or.inl hcount) trivial
  | finishRequest hview =>
      rename_i p timeoutFlag request outcome locked
      refine h.quiet hlock (fun _ => trivial) ?_
      intro q entry hentry
      by_cases hq : q = p
      · rw [hq, Function.update_self] at hentry
        rcases List.mem_append.mp hentry with hold | hlast
        · exact h.returned p entry hold
        · rcases Option.isSome_iff_exists.mp h.exist with ⟨set, hset⟩
          have hself := h.views set hset p
          rw [hview] at hself
          rw [List.mem_singleton.mp hlast]
          exact hself.right
      · rw [Function.update_of_ne hq] at hentry
        exact h.returned q entry hentry
  | finishDestruct hview =>
      rcases Option.isSome_iff_exists.mp h.exist with ⟨set, hset⟩
      rename_i p _
      have hself := h.views set hset p
      rw [hview] at hself
      cases hself

theorem semop_sleeps {k : Kernel} {set : SemSet} {semid semOp : Int}
    {semNum : Nat} {flags : SemFlags} (hset : k.sets semid = some set)
    (hop : k.semop removed p semid semNum semOp flags = none) :
    set.val semNum + semOp < 0 := by
  by_contra hlow
  simp only [Kernel.semop, hset, if_neg hlow] at hop
  split at hop <;> cases hop

theorem awake_inside {set : SemSet} {owner : Option Pid} {semNum : Nat}
    {semOp : Int} {flags : SemFlags} (halive : Alive cfg m set owner)
    (hview : m.view p = View.working timeoutFlag request point locked)
    (hcode : (point.code timeoutFlag (cfg.handle p) request).nextOp =
      some (Op.semop cfg.semId semNum semOp flags))
    (hinside : point.inside = true) : 0 ≤ set.val semNum + semOp := by
  have hflag := (halive.owner_of_inside hview hinside).right
  have hfacts := halive.facts p
  have hlow := halive.low
  rw [hview] at hfacts
  cases point with
  | failRelease =>
      cases hcode
      rw [hflag]
      decide
  | release out =>
      cases hcode
      rw [hflag]
      decide
  | commit out =>
      cases hcode
      cases request with
      | push val =>
          simp only [Request.delta]
          lia
      | pop =>
          have hsome : 0 < set.val SEM_COUNT := hfacts
          simp only [Request.delta]
          lia
  | access index => cases request <;> cases hcode
  | acquire | done _ => cases hinside
  | check | slot | ended _ => cases hcode

theorem asleep_at {set : SemSet} {semNum : Nat} {semOp : Int}
    {flags : SemFlags}
    (hcode : (point.code timeoutFlag (cfg.handle p) request).nextOp =
      some (Op.semop cfg.semId semNum semOp flags))
    (houtside : point.inside = false) (hlow : set.val semNum + semOp < 0) :
    set.val SEM_FLAG ≠ 1 := by
  cases point with
  | acquire =>
      cases hcode
      lia
  | done outcome => cases hcode
  | check | failRelease | slot | access _ | commit _ | release _
  | ended _ => cases houtside

theorem Alive.lock_held {set : SemSet} {owner : Option Pid}
    (halive : Alive cfg m set owner) (hdown : set.val SEM_FLAG ≠ 1) :
    exists q timeoutFlag call code,
      (m.toState cfg).status q = Status.running timeoutFlag call code true := by
  cases howner : owner with
  | none =>
      have hflag := halive.flag
      rw [if_pos howner] at hflag
      exact absurd hflag hdown
  | some q =>
      have hinside := (halive.owner q).mp howner
      have hlocked := halive.locked q
      rw [hinside] at hlocked
      cases hview : m.view q with
      | working timeoutFlag request point locked =>
          rw [hview] at hlocked
          have htrue : locked = true := hlocked
          rw [htrue] at hview
          exact ⟨q, timeoutFlag, _, _, toState_status hview⟩
      | idle =>
          rw [hview] at hinside
          cases hinside
      | destroying _ _ =>
          rw [hview] at hinside
          cases hinside
      | dead _ =>
          rw [hview] at hinside
          cases hinside

theorem Serving.waits (h : Serving cfg m) : Waits cfg (m.toState cfg) where
  served := h.returned
  free := by
    intro p timeoutFlag call locked removed semNum semOp flags next hstatus hop
    rcases Option.isSome_iff_exists.mp h.exist with ⟨set, hset⟩
    rcases h.lock set hset with ⟨owner, halive⟩
    have hlow := semop_sleeps hset hop
    rw [toState_status rfl] at hstatus
    cases hview : m.view p with
    | working timeoutFlag' request point locked' =>
        have hlocked := halive.locked_of_working hview
        rw [hview] at hstatus
        injection hstatus with _ _ hcode hflag
        have hnext := congrArg Program.nextOp hcode
        have houtside : point.inside = false := by
          rw [Bool.eq_false_iff]
          intro hinside
          have hawake := awake_inside halive hview hnext hinside
          lia
        rw [← hflag, hlocked]
        exact ⟨houtside, halive.lock_held (asleep_at hnext houtside hlow)⟩
    | destroying timeoutFlag' point =>
        have hself := h.views set hset p
        rw [hview] at hself
        cases hself
    | idle =>
        rw [hview] at hstatus
        cases hstatus
    | dead _ =>
        rw [hview] at hstatus
        cases hstatus

end Steps

/-!
## Runs
-/

section Runs

variable {cfg : Config} {s0 s : State} {labels : List Label}

theorem existing_machine (h : Existing cfg s0) :
    exists m : Machine, s0 = m.toState cfg ∧ Serving cfg m := by
  let m : Machine :=
    { kernel := s0.kernel
      view := fun _ => View.idle
      returned := s0.returned }
  rcases h.set with ⟨set, hset, hlow, hhigh, hflag, hadj⟩
  have hlock : LockInv cfg m := by
    intro set' hset'
    have heq : some set = some set' := hset.symm.trans hset'
    injection heq with heq
    rw [← heq]
    refine ⟨none, ?_, hlow, hhigh, fun p => hadj p _, fun p => hadj p _, hflag,
      ?_, fun _ => rfl, fun _ => trivial⟩
    · intro p hp
      exact absurd hp (h.errno p)
    · intro p
      simp [m, View.inside]
  refine ⟨m, ?_, hlock, ?_, fun _ _ _ => trivial, ?_⟩
  · cases s0 with
    | mk kernel status returned =>
        have hidle : status = fun _ => Status.idle := funext h.idle
        rw [hidle]
        rfl
  · rw [Option.isSome_iff_exists]
    exact ⟨set, hset⟩
  · intro p entry hentry
    have hnone : m.returned p = [] := h.returned p
    rw [hnone] at hentry
    cases hentry

/-- In every run in mode 0 in which no call takes the lock of a stack that is
full for its push or empty for its pop, every call that returns returns 0, and
no call sleeps with the lock. -/
theorem calls_wait (hexisting : Existing cfg s0)
    (hmode : forall l, l ∈ labels -> InfiniteWait l)
    (hsteps : AllSteps (step cfg) (FindsWork cfg) s0 labels)
    (hrun : run (step cfg) s0 labels = some s) : Waits cfg s := by
  rcases existing_machine hexisting with ⟨m0, hs0, hserving⟩
  rw [hs0] at hsteps hrun
  have hboth := hsteps.and (allSteps_of_mem hmode _)
  rcases machine_invariant (fun _ _ _ h hguard hstep =>
    serving_step h hguard.right hguard.left hstep) hserving hboth hrun with
    ⟨m, hs, hm⟩
  rw [hs]
  exact hm.waits

def pushedAndPopped : List Label :=
  [Label.begin 1 0 (Call.request (Request.push 7)),
    Label.begin 2 0 (Call.request Request.pop)] ++
    List.replicate 6 (Label.atom 1 Removed.einval) ++
    List.replicate 6 (Label.atom 2 Removed.einval) ++
    [Label.finish 2]

theorem existing_newStack (size : Pid -> Int) (attached : List Pid) :
    Existing { size := size, shmemId := 1, semId := 1 }
      (newStack attached) where
  idle := fun _ => rfl
  returned := fun _ => rfl
  errno := by
    intro p herr
    cases herr
  set := ⟨_, rfl, by decide, by decide, rfl, fun _ _ => rfl⟩

theorem calls_wait_pushed :
    exists s, run (step eightSlots) (newStack [1, 2]) pushedAndPopped = some s ∧
      Waits eightSlots s := by
  have hmode : forall l, l ∈ pushedAndPopped -> InfiniteWait l := by
    intro l hl
    simp [pushedAndPopped] at hl
    rcases hl with h | h | h | h | h <;> rw [h] <;> trivial
  have hrun : exists s,
      run (step eightSlots) (newStack [1, 2]) pushedAndPopped = some s :=
    ⟨_, rfl⟩
  rcases hrun with ⟨s, hrun⟩
  exact ⟨s, hrun, calls_wait (existing_newStack _ _) hmode (by decide) hrun⟩

/-- A pop in mode 0 from an empty stack returns -1 although nobody else acts. -/
theorem pop_gives_up :
    exists s,
      run (step eightSlots) (newStack [1])
          [Label.begin 1 0 (Call.request Request.pop),
            Label.atom 1 Removed.einval, Label.atom 1 Removed.einval,
            Label.atom 1 Removed.einval, Label.finish 1] = some s ∧
        s.returned 1 =
          [(Call.request Request.pop, { ret := -1, out := none })] ∧
        ¬ Waits eightSlots s := by
  refine ⟨_, rfl, rfl, ?_⟩
  intro hwaits
  have hserved := hwaits.served 1
    (Call.request Request.pop, { ret := -1, out := none })
    List.mem_cons_self
  cases hserved

end Runs

end Stack
end UnixPrograms
