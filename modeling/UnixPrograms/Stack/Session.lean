import UnixPrograms.Stack.Attach
import UnixPrograms.Stack.Sequential
import UnixPrograms.Foundation.Transition

/-!
# Sessions of one process

One process attaches a stack that nobody has used and makes any sequence of
calls.  As long as no push starts with COUNT at the ceiling of a semaphore,
`get_count` is the number of successful pushes minus the number of successful
pops; the first push that starts there is lost although it returns 0.
-/

namespace UnixPrograms
namespace Stack

open Foundation
open Ipc

structure Session where
  kernel : Kernel
  trace : List (Request × Outcome)

def sessionStep (removed : Removed) (p : Pid) (h : StackT) (s : Session)
    (call : Int × Request) : Option Session :=
  match solo removed p (call.2.code call.1 h) s.kernel with
  | some (Except.ok outcome, kernel) =>
      some { kernel := kernel, trace := s.trace ++ [(call.2, outcome)] }
  | _ => none

def Reads (removed : Removed) (p : Pid) (h : StackT) (k : Kernel)
    (n : Int) : Prop :=
  exists k', solo removed p (getCount (some h)) k = some (Except.ok n, k')

def gain : Request × Outcome -> Int
  | (Request.push _, outcome) => if outcome.ret = 0 then 1 else 0
  | (Request.pop, outcome) => if outcome.ret = 0 then -1 else 0

def balance (trace : List (Request × Outcome)) : Int :=
  (trace.map gain).sum

/-- A push that returns 0 from `k` is counted once and is what the next pop
delivers. -/
def PushKept (removed : Removed) (p : Pid) (h : StackT) (k : Kernel)
    (timeoutFlag : Int) (val : Ptr) : Prop :=
  forall outcome k',
    solo removed p ((Request.push val).code timeoutFlag h) k =
      some (Except.ok outcome, k') ->
    outcome.ret = 0 ->
    (forall n, Reads removed p h k n -> Reads removed p h k' (n + 1)) ∧
      forall nextFlag, ValidWait nextFlag ->
        exists k'',
          solo removed p (Request.pop.code nextFlag h) k' =
            some (Except.ok { ret := 0, out := some val }, k'')

/-- No push of the session is lost, and `get_count` is right after each call. -/
structure Lossless (removed : Removed) (p : Pid) (h : StackT) (k : Kernel)
    (calls : List (Int × Request)) : Prop where
  kept : forall before timeoutFlag val after s,
    calls = before ++ (timeoutFlag, Request.push val) :: after ->
    run (sessionStep removed p h) { kernel := k, trace := [] } before =
      some s ->
    PushKept removed p h s.kernel timeoutFlag val
  counted : forall before after s n,
    calls = before ++ after ->
    run (sessionStep removed p h) { kernel := k, trace := [] } before =
      some s ->
    Reads removed p h s.kernel n -> n = balance s.trace

/-- The call is no push into a larger stack whose COUNT is at the ceiling. -/
def RoomInCount (h : StackT) (s : Session) : Int × Request -> Prop
  | (timeoutFlag, Request.push _) =>
      forall set, s.kernel.sets h.semId = some set -> ValidWait timeoutFlag ->
        SEMVMX < h.size -> set.val SEM_COUNT < SEMVMX
  | (_, Request.pop) => True

def Uncapped (removed : Removed) (p : Pid) (h : StackT) (k : Kernel)
    (calls : List (Int × Request)) : Prop :=
  AllSteps (sessionStep removed p h) (RoomInCount h)
    { kernel := k, trace := [] } calls

/-!
## A new stack
-/

/-- FLAG was never raised, so no call gets in. -/
def Closed (k : Kernel) (h : StackT) : Prop :=
  exists set, k.sets h.semId = some set ∧ set.val SEM_COUNT = 0 ∧
    set.val SEM_FLAG = 0

section Attach

variable {removed : Removed} {p : Pid} {timeoutFlag key size : Int}
  {k k' : Kernel} {h : StackT}

theorem attach_lookup_private {shmemId memory : Int}
    (hkey : key = IPC_PRIVATE)
    (hrun : solo removed p
      (AttachPoint.lookupCode key size shmemId memory) k =
        some (Except.ok (some h), k')) :
    h.size = size ∧ Closed k' h := by
  have hlookup : k.exec removed p (Op.semget key 2 shmgetExcl) =
      some (k.ok p k.nextSem, k.newSem key) :=
    congrArg some (semget_private p hkey)
  unfold solo AttachPoint.lookupCode at hrun
  rw [Program.eval_call _ hlookup, Kernel.ok_ret] at hrun
  by_cases hsem : k.nextSem ≤ 0
  · rw [if_pos hsem] at hrun
    cases hrun
  · rw [if_neg hsem] at hrun
    cases hrun
    exact ⟨rfl, SemSet.new key, Kernel.newSem_sets_self _ _, rfl, rfl⟩

/-- `IPC_PRIVATE` makes `attach_stack` believe that somebody else has created
the stack, so FLAG is never raised. -/
theorem attach_private (hkey : key = IPC_PRIVATE) (hids : 0 < k.nextShm)
    (hrun : solo removed p (attachStack timeoutFlag key size) k =
      some (Except.ok (some h), k')) :
    h.size = size ∧ Closed k' h := by
  rw [attachStack_code_eq] at hrun
  unfold solo at hrun
  have hprobe : k.exec removed p (Op.shmget key size shmgetExcl) =
      some (k.shmCreate p key size) :=
    congrArg some (shmget_private p hkey)
  by_cases hpos : 0 < (k.shmCreate p key size).1.ret
  · rw [shmCreate_of_pos p hpos] at hprobe
    have hmap : (k.newSeg key (sizeT size)).exec removed p
        (Op.shmat k.nextShm) = _ :=
      congrArg some
        (shmat_some p removed (Kernel.newSeg_segs_self k key (sizeT size)))
    rw [AttachPoint.code, AttachPoint.probeCode, Program.eval_call _ hprobe,
      Kernel.ok_ret, if_pos hids, AttachPoint.mapFoundCode,
      Program.eval_call _ hmap, Kernel.ok_ret] at hrun
    exact attach_lookup_private hkey hrun
  · rw [shmCreate_of_not_pos p hids hpos] at hprobe
    rw [AttachPoint.code, AttachPoint.probeCode, Program.eval_call _ hprobe,
      if_neg (by simp), if_pos rfl] at hrun
    cases hrun

theorem attach_createSet {shmemId memory : Int} {seg : Segment}
    (hset : k.semKeys key = none) (herrno : k.errno p ≠ Errno.eidrm)
    (hseg : k.segs memory = some seg)
    (hattached : seg.attached.contains p = true)
    (hrun : solo removed p
      (AttachPoint.createSetCode timeoutFlag key size shmemId memory) k =
        some (Except.ok (some h), k')) :
    h.size = size ∧
      (Holds k' p h { count := 0, memory := seg.memory } 1 ∨
        Closed k' h) := by
  have hget : k.exec removed p (Op.semget key 2 shmgetCreatExcl) =
      some (k.ok p k.nextSem, k.newSem key) :=
    congrArg some (semget_create p hset rfl)
  unfold solo AttachPoint.createSetCode at hrun
  rw [Program.eval_call _ hget] at hrun
  have hnew := Kernel.newSem_sets_self k key
  by_cases hbad : (k.ok p k.nextSem).errno = Errno.eexist ∨
      (k.ok p k.nextSem).ret ≤ 0
  · rw [if_pos hbad] at hrun
    cases hrun
  · rw [if_neg hbad] at hrun
    by_cases hwait : ValidWait timeoutFlag
    · have hraise : (k.newSem key).exec removed p
          (Op.semop k.nextSem SEM_FLAG 1 (initFlags timeoutFlag)) = _ :=
        semop_applied removed p (initFlags timeoutFlag) hnew
          (by change (0 : Int) ≤ 0 + 1; decide)
          (by change (0 : Int) + 1 ≤ SEMVMX; decide)
      rw [if_pos hwait, AttachPoint.raiseFlagCode, Kernel.ok_ret,
        Program.eval_call _ hraise] at hrun
      cases hrun
      exact ⟨rfl, Or.inl ⟨⟨seg, hseg, rfl, hattached⟩,
        ⟨_, Kernel.setSem_sets_self _ _ _,
          SemSet.apply_val_of_ne _ _ _ _ (by decide),
          SemSet.apply_val_self _ _ _ _ _⟩, herrno⟩⟩
    · rw [if_neg hwait] at hrun
      cases hrun
      exact ⟨rfl, Or.inr ⟨_, hnew, rfl, rfl⟩⟩

theorem attach_create (hshm : k.shmKeys key = none)
    (hsem : k.semKeys key = none) (hids : 0 < k.nextShm)
    (herrno : k.errno p ≠ Errno.eidrm)
    (hrun : solo removed p (AttachPoint.createCode timeoutFlag key size) k =
      some (Except.ok (some h), k')) :
    h.size = size ∧
      (Holds k' p h { count := 0, memory := fun _ => 0 } 1 ∨
        Closed k' h) := by
  have hcreate : k.exec removed p (Op.shmget key size shmgetCreatExcl) =
      some (k.shmCreate p key size) :=
    congrArg some (shmget_create p hshm rfl)
  unfold solo AttachPoint.createCode at hrun
  by_cases hpos : 0 < (k.shmCreate p key size).1.ret
  · rw [shmCreate_of_pos p hpos] at hcreate
    have hmap : (k.newSeg key (sizeT size)).exec removed p
        (Op.shmat k.nextShm) = _ :=
      congrArg some
        (shmat_some p removed (Kernel.newSeg_segs_self k key (sizeT size)))
    rw [Program.eval_call _ hcreate, Kernel.ok_ret, if_pos hids,
      AttachPoint.mapNewCode, Program.eval_call _ hmap, Kernel.ok_ret] at hrun
    exact attach_createSet (by exact hsem) (by exact herrno)
      (Kernel.setSeg_segs_self _ _ _) (by simp) hrun
  · rw [shmCreate_of_not_pos p hids hpos] at hcreate
    rw [Program.eval_call _ hcreate, if_neg (by simp)] at hrun
    cases hrun

theorem attach_unused (hshm : k.shmKeys key = none)
    (hsem : k.semKeys key = none) (hids : 0 < k.nextShm)
    (hrun : solo removed p (attachStack timeoutFlag key size) k =
      some (Except.ok (some h), k')) :
    h.size = size ∧
      (Holds k' p h { count := 0, memory := fun _ => 0 } 1 ∨
        Closed k' h) := by
  by_cases hkey : key = IPC_PRIVATE
  · rcases attach_private hkey hids hrun with ⟨hsize, hclosed⟩
    exact ⟨hsize, Or.inr hclosed⟩
  · have hprobe : k.exec removed p (Op.shmget key size shmgetExcl) =
        some (k.fail p Errno.enoent) :=
      congrArg some (shmget_missing p hkey hshm rfl)
    have herrno : (k.fail p Errno.enoent).2.errno p ≠ Errno.eidrm := by
      rw [Kernel.fail_errno_self]
      decide
    rw [attachStack_code_eq] at hrun
    unfold solo at hrun
    rw [AttachPoint.code, AttachPoint.probeCode, Program.eval_call _ hprobe,
      if_neg (by simp), if_neg (by simp)] at hrun
    exact attach_create (by exact hshm) (by exact hsem) (by exact hids) herrno
      hrun

end Attach

/-!
## Calls on an open and on a closed stack
-/

section Steps

variable {removed : Removed} {p : Pid} {h : StackT} {s s' : Session}
  {c : Contents}

theorem sessionStep_open (hs : Holds s.kernel p h c 1) (hc : c.Legal)
    (timeoutFlag : Int) (request : Request)
    (hstep : sessionStep removed p h s (timeoutFlag, request) = some s') :
    Holds s'.kernel p h (c.call h.size timeoutFlag request).2 1 ∧
      s'.trace = s.trace ++
        [(request, (c.call h.size timeoutFlag request).1)] := by
  rcases solo_request hs removed hc timeoutFlag request with
    ⟨k', hrun, hk'⟩
  simp only [sessionStep, hrun] at hstep
  injection hstep with hstep
  subst hstep
  exact ⟨hk', rfl⟩

theorem solo_closed {k k' : Kernel} {timeoutFlag : Int} {request : Request}
    {result : Except Exit Outcome} (hk : Closed k h)
    (hrun : solo removed p (request.code timeoutFlag h) k =
      some (result, k')) :
    result = Except.ok { ret := -1, out := none } ∧ Closed k' h := by
  rw [request_code_eq] at hrun
  unfold startPoint solo at hrun
  by_cases hwait : ValidWait timeoutFlag
  · rw [if_pos hwait] at hrun
    rcases hk with ⟨set, hset, hcount, hflag⟩
    simp only [Point.code, Point.acquireCode, Program.eval] at hrun
    cases hop : k.exec removed p
        (Op.semop h.semId SEM_FLAG (-1) (flagFlags timeoutFlag)) with
    | none =>
        rw [hop] at hrun
        cases hrun
    | some answered =>
        rcases answered with ⟨answer, k1⟩
        rw [hop] at hrun
        cases semop_result hop with
        | gone hgone =>
            rw [hset] at hgone
            cases hgone
        | refused _ _ _ _ _ =>
            cases hrun
            exact ⟨rfl, set, hset, hcount, hflag⟩
        | applied set' hset' hlow _ =>
            rw [hset] at hset'
            injection hset' with hset'
            subst hset'
            rw [hflag] at hlow
            exact absurd hlow (by decide)
  · rw [if_neg hwait] at hrun
    cases hrun
    exact ⟨rfl, hk⟩

theorem sessionStep_closed {timeoutFlag : Int} {request : Request}
    (hs : Closed s.kernel h)
    (hstep : sessionStep removed p h s (timeoutFlag, request) = some s') :
    Closed s'.kernel h ∧
      s'.trace = s.trace ++ [(request, { ret := -1, out := none })] := by
  unfold sessionStep at hstep
  cases hrun : solo removed p (request.code timeoutFlag h) s.kernel with
  | none =>
      simp only [hrun] at hstep
      cases hstep
  | some answered =>
      rcases answered with ⟨result, k'⟩
      rcases solo_closed hs hrun with ⟨hresult, hk'⟩
      subst hresult
      simp only [hrun] at hstep
      injection hstep with hstep
      subst hstep
      exact ⟨hk', rfl⟩

theorem reads_open {k : Kernel} {n : Int} (hk : Holds k p h c 1) :
    Reads removed p h k n <-> n = c.count := by
  constructor
  · intro hreads
    rcases hreads with ⟨k', hrun⟩
    rw [solo_getCount hk removed] at hrun
    cases hrun
    rfl
  · intro hn
    subst hn
    exact ⟨k, solo_getCount hk removed⟩

theorem reads_closed {k : Kernel} {n : Int} (hk : Closed k h)
    (hreads : Reads removed p h k n) : n = 0 := by
  rcases hk with ⟨set, hset, hcount, _⟩
  rcases hreads with ⟨k', hrun⟩
  have hop : k.exec removed p (Op.getval h.semId SEM_COUNT) =
      some (k.ok p (set.val SEM_COUNT), k) :=
    congrArg some (getval_some removed p SEM_COUNT hset)
  have hcode : getCount (some h) =
      Program.call (Op.getval h.semId SEM_COUNT) (fun answer =>
        if answer.errno = Errno.eidrm then Program.halt (Exit.exit 1)
        else Program.ret answer.ret) := rfl
  rw [hcode] at hrun
  unfold solo at hrun
  rw [Program.eval_call _ hop] at hrun
  by_cases herr : (k.ok p (set.val SEM_COUNT)).errno = Errno.eidrm
  · rw [if_pos herr] at hrun
    cases hrun
  · rw [if_neg herr] at hrun
    cases hrun
    exact hcount

theorem balance_snoc (trace : List (Request × Outcome))
    (entry : Request × Outcome) :
    balance (trace ++ [entry]) = balance trace + gain entry := by
  simp [balance]

theorem gain_failed (request : Request) (out : Option Ptr) :
    gain (request, { ret := -1, out := out }) = 0 := by
  cases request <;> rfl

def Usable (p : Pid) (h : StackT) (s : Session) : Prop :=
  (exists c, Holds s.kernel p h c 1 ∧ c.Legal) ∨ Closed s.kernel h

def CountIsBalance (h : StackT) (s : Session) : Prop :=
  forall set, s.kernel.sets h.semId = some set ->
    set.val SEM_COUNT = balance s.trace

theorem usable_step {call : Int × Request} (hs : Usable p h s)
    (hstep : sessionStep removed p h s call = some s') : Usable p h s' := by
  cases hs with
  | inl hopen =>
      rcases hopen with ⟨c, hk, hc⟩
      exact Or.inl ⟨_, (sessionStep_open hk hc call.1 call.2 hstep).left,
        hc.call h.size call.1 call.2⟩
  | inr hclosed => exact Or.inr (sessionStep_closed hclosed hstep).left

/-- The only call that is counted wrongly is the push that finds no room in
COUNT. -/
theorem call_gain {size timeoutFlag : Int} {request : Request}
    (hroom : forall val, request = Request.push val ->
      ValidWait timeoutFlag -> SEMVMX < size -> c.count < SEMVMX) :
    (c.call size timeoutFlag request).2.count =
      c.count + gain (request, (c.call size timeoutFlag request).1) := by
  cases request with
  | push val =>
      by_cases hok : ValidWait timeoutFlag ∧ c.count < size
      · have hbelow : c.count < SEMVMX := by
          have hsize := hroom val rfl hok.left
          have hlt := hok.right
          lia
        simp [Contents.call, hok, Contents.raise, Contents.write, hbelow, gain]
      · simp [Contents.call, hok, gain]
  | pop =>
      by_cases hok : ValidWait timeoutFlag ∧ c.count ≠ 0
      · simp [Contents.call, hok, Contents.lower, gain, Int.sub_eq_add_neg]
      · simp only [Contents.call, if_neg hok, gain]
        simp

theorem countIsBalance_step {call : Int × Request} (hs : Usable p h s)
    (hcount : CountIsBalance h s) (hroom : RoomInCount h s call)
    (hstep : sessionStep removed p h s call = some s') :
    CountIsBalance h s' := by
  rcases call with ⟨timeoutFlag, request⟩
  intro set' hset'
  cases hs with
  | inl hopen =>
      rcases hopen with ⟨c, hk, hc⟩
      rcases sessionStep_open hk hc timeoutFlag request hstep with
        ⟨hk', htrace⟩
      rcases hk.set with ⟨set, hset, hbefore, _⟩
      rcases hk'.set with ⟨set1, hset1, hafter, _⟩
      rw [hset1] at hset'
      injection hset' with hset'
      subst hset'
      rw [hafter, htrace, balance_snoc, ← hcount set hset, hbefore]
      apply call_gain
      intro val hval hwait hsize
      subst hval
      rw [← hbefore]
      exact hroom set hset hwait hsize
  | inr hclosed =>
      rcases sessionStep_closed hclosed hstep with
        ⟨⟨set1, hset1, hzero, _⟩, htrace⟩
      rcases hclosed with ⟨set, hset, hbefore, _⟩
      rw [hset1] at hset'
      injection hset' with hset'
      subst hset'
      rw [hzero, htrace, balance_snoc, gain_failed, ← hcount set hset, hbefore]
      rfl

theorem pushKept_of_room {timeoutFlag : Int} {val : Ptr} (hs : Usable p h s)
    (hroom : RoomInCount h s (timeoutFlag, Request.push val)) :
    PushKept removed p h s.kernel timeoutFlag val := by
  intro outcome k' hrun hret
  cases hs with
  | inl hopen =>
      rcases hopen with ⟨c, hk, hc⟩
      rcases hk.set with ⟨set, hset, hcount, _⟩
      rcases solo_request hk removed hc timeoutFlag
        (Request.push val) with ⟨k1, hrun1, hk1⟩
      rw [hrun1] at hrun
      injection hrun with hrun
      injection hrun with houtcome hkernel
      injection houtcome with houtcome
      subst houtcome
      subst hkernel
      have hok : ValidWait timeoutFlag ∧ c.count < h.size := by
        by_cases hok : ValidWait timeoutFlag ∧ c.count < h.size
        · exact hok
        · simp [Contents.call, hok] at hret
      have hbelow : c.count < SEMVMX := by
        have hsize := hroom set hset hok.left
        rw [hcount] at hsize
        have hlt := hok.right
        lia
      have hcall : (c.call h.size timeoutFlag (Request.push val)).2 =
          { c.write val with count := c.count + 1 } := by
        simp [Contents.call, hok, Contents.raise, Contents.write, hbelow]
      rw [hcall] at hk1
      constructor
      · intro n hn
        rw [(reads_open hk).mp hn]
        exact (reads_open hk1).mpr rfl
      · intro nextFlag hnext
        have hlegal : Contents.Legal
            { c.write val with count := c.count + 1 } := by
          rcases hc with ⟨hlow, _⟩
          simp only [Contents.Legal]
          lia
        rcases solo_request hk1 removed hlegal nextFlag
          Request.pop with ⟨k2, hrun2, _⟩
        refine ⟨k2, hrun2.trans ?_⟩
        have hne : c.count + 1 ≠ 0 := by
          have hlow := hc.left
          lia
        simp [Contents.call, hnext, hne, Contents.write]
  | inr hclosed =>
      rcases solo_closed hclosed hrun with ⟨houtcome, _⟩
      injection houtcome with houtcome
      subst houtcome
      exact absurd hret (by decide)

theorem room_of_pushKept {timeoutFlag : Int} {val : Ptr} (hs : Usable p h s)
    (hkept : PushKept removed p h s.kernel timeoutFlag val) :
    RoomInCount h s (timeoutFlag, Request.push val) := by
  intro set hset hwait hsize
  cases hs with
  | inl hopen =>
      rcases hopen with ⟨c, hk, hc⟩
      rcases hk.set with ⟨set', hset', hcount, _⟩
      rw [hset] at hset'
      injection hset' with hset'
      subst hset'
      rw [hcount]
      by_cases hbelow : c.count < SEMVMX
      · exact hbelow
      · have hhigh := hc.right
        have hok : ValidWait timeoutFlag ∧ c.count < h.size :=
          ⟨hwait, by lia⟩
        rcases solo_request hk removed hc timeoutFlag
          (Request.push val) with ⟨k1, hrun, hk1⟩
        have hret : (c.call h.size timeoutFlag (Request.push val)).1.ret =
            0 := by
          simp [Contents.call, hok]
        have hcall : (c.call h.size timeoutFlag (Request.push val)).2.count =
            c.count := by
          simp [Contents.call, hok, Contents.raise, Contents.write, hbelow]
        have hreads := (hkept _ _ hrun hret).left c.count
          ((reads_open hk).mpr rfl)
        have hsame := (reads_open hk1).mp hreads
        rw [hcall] at hsame
        lia
  | inr hclosed =>
      rcases hclosed with ⟨set', hset', hcount, _⟩
      rw [hset] at hset'
      injection hset' with hset'
      subst hset'
      rw [hcount]
      decide

theorem usable_run {calls : List (Int × Request)} (hs : Usable p h s)
    (hrun : run (sessionStep removed p h) s calls = some s') :
    Usable p h s' :=
  run_invariant (Usable p h) (fun _ _ _ hs _ hstep => usable_step hs hstep)
    hs (allSteps_of_forall (fun _ _ => trivial) calls s) hrun

theorem lossless_of_uncapped {k : Kernel} {calls : List (Int × Request)}
    (hs : Usable p h { kernel := k, trace := [] })
    (hcount : CountIsBalance h { kernel := k, trace := [] })
    (huncapped : Uncapped removed p h k calls) :
    Lossless removed p h k calls where
  kept := by
    intro before timeoutFlag val after s hcalls hrun
    exact pushKept_of_room (usable_run hs hrun)
      (allSteps_iff_split.mp huncapped _ _ _ _ hcalls hrun)
  counted := by
    intro before after s n hcalls hrun hreads
    subst hcalls
    have hboth := run_invariant
      (fun s => Usable p h s ∧ CountIsBalance h s)
      (fun _ _ _ hs hroom hstep => ⟨usable_step hs.left hstep,
        countIsBalance_step hs.left hs.right hroom hstep⟩)
      ⟨hs, hcount⟩ huncapped.take hrun
    cases hboth.left with
    | inl hopen =>
        rcases hopen with ⟨c, hk, _⟩
        rcases hk.set with ⟨set, hset, hval, _⟩
        rw [(reads_open hk).mp hreads, ← hval]
        exact hboth.right set hset
    | inr hclosed =>
        rw [reads_closed hclosed hreads]
        rcases hclosed with ⟨set, hset, hval, _⟩
        rw [← hval]
        exact hboth.right set hset

theorem uncapped_of_lossless {k : Kernel} {calls : List (Int × Request)}
    (hs : Usable p h { kernel := k, trace := [] })
    (hlossless : Lossless removed p h k calls) :
    Uncapped removed p h k calls := by
  apply allSteps_iff_split.mpr
  intro before call after s hcalls hrun
  rcases call with ⟨timeoutFlag, request⟩
  cases request with
  | push val =>
      exact room_of_pushKept (usable_run hs hrun)
        (hlossless.kept before timeoutFlag val after s hcalls hrun)
  | pop => trivial

end Steps

/-!
## The law of sessions

A single process does to COUNT and the slots what its calls ask for.  The one
exception is the push that finds COUNT at the ceiling of a semaphore: its slot is
written and it returns 0, but COUNT stays.
-/

section Law

variable {removed : Removed} {p : Pid} {timeoutFlag key size : Int}
  {k k' : Kernel} {h : StackT}

theorem attach_usable (hshm : k.shmKeys key = none)
    (hsem : k.semKeys key = none) (hids : 0 < k.nextShm)
    (hattach : solo removed p (attachStack timeoutFlag key size) k =
      some (Except.ok (some h), k')) :
    Usable p h { kernel := k', trace := [] } ∧
      CountIsBalance h { kernel := k', trace := [] } := by
  cases (attach_unused hshm hsem hids hattach).right with
  | inl hopen =>
      refine ⟨Or.inl ⟨_, hopen, by simp [Contents.Legal, SEMVMX]⟩, ?_⟩
      intro set hset
      rcases hopen.set with ⟨set', hset', hcount, _⟩
      rw [hset'] at hset
      injection hset with hset
      subst hset
      exact hcount
  | inr hclosed =>
      refine ⟨Or.inr hclosed, ?_⟩
      intro set hset
      rcases hclosed with ⟨set', hset', hcount, _⟩
      rw [hset'] at hset
      injection hset with hset
      subst hset
      exact hcount

/-- A session on a new stack loses nothing exactly when no push starts with
COUNT at the ceiling of a semaphore and below the stack's size. -/
theorem lossless_iff_uncapped (hshm : k.shmKeys key = none)
    (hsem : k.semKeys key = none) (hids : 0 < k.nextShm)
    (hattach : solo removed p (attachStack timeoutFlag key size) k =
      some (Except.ok (some h), k')) (calls : List (Int × Request)) :
    Lossless removed p h k' calls <-> Uncapped removed p h k' calls := by
  rcases attach_usable hshm hsem hids hattach with ⟨husable, hcount⟩
  exact ⟨uncapped_of_lossless husable, lossless_of_uncapped husable hcount⟩

theorem lossless_iff_uncapped_small :
    exists h k',
      solo Removed.einval 1 (attachStack 0 5 8) (Kernel.empty 65536) =
        some (Except.ok (some h), k') ∧
        (Lossless Removed.einval 1 h k'
            [(0, Request.push 7), (-1, Request.pop)] <->
          Uncapped Removed.einval 1 h k'
            [(0, Request.push 7), (-1, Request.pop)]) := by
  have hattach : exists h k',
      solo Removed.einval 1 (attachStack 0 5 8) (Kernel.empty 65536) =
        some (Except.ok (some h), k') := ⟨_, _, rfl⟩
  rcases hattach with ⟨h, k', hrun⟩
  exact ⟨h, k', hrun, lossless_iff_uncapped rfl rfl Int.one_pos hrun _⟩

theorem uncapped_of_size (hsize : h.size ≤ SEMVMX)
    (calls : List (Int × Request)) : Uncapped removed p h k calls := by
  refine allSteps_of_forall ?_ calls _
  intro s call
  rcases call with ⟨timeoutFlag, request⟩
  cases request with
  | push val =>
      intro set hset hwait hlarge
      lia
  | pop => trivial

theorem run_pushes (removed : Removed) (val : Ptr) (n : Nat) (s : Session)
    {c : Contents} (hs : Holds s.kernel p h c 1) (hc : c.Legal)
    (hsize : c.count + n ≤ h.size) (hceiling : c.count + n ≤ SEMVMX) :
    exists s' c',
      run (sessionStep removed p h) s (List.replicate n (0, Request.push val)) =
        some s' ∧
        Holds s'.kernel p h c' 1 ∧ c'.Legal ∧ c'.count = c.count + n := by
  induction n generalizing s c with
  | zero => exact ⟨s, c, rfl, hs, hc, by simp⟩
  | succ n ih =>
      have hok : ValidWait 0 ∧ c.count < h.size :=
        ⟨Or.inr (Or.inl rfl), by lia⟩
      have hbelow : c.count < SEMVMX := by
        lia
      rcases solo_request hs removed hc 0 (Request.push val) with
        ⟨k1, hrun, hk1⟩
      have hlegal := hc.call h.size 0 (Request.push val)
      have hcount : (c.call h.size 0 (Request.push val)).2.count =
          c.count + 1 := by
        simp [Contents.call, hok, Contents.raise, Contents.write, hbelow]
      let next : Session :=
        { kernel := k1
          trace := s.trace ++ [(Request.push val,
            (c.call h.size 0 (Request.push val)).1)] }
      have hstep : sessionStep removed p h s (0, Request.push val) =
          some next := by
        simp only [sessionStep, hrun]
        rfl
      rw [List.replicate_succ, run_cons_of_step _ hstep]
      rcases ih next hk1 hlegal (by lia) (by lia) with
        ⟨s', c', hrest, hk', hc', hcount'⟩
      exact ⟨s', c', hrest, hk', hc', by lia⟩

/-- A stack of 32768 slots loses its last push: `get_count` stays at 32767
although the push returns 0. -/
theorem push_lost_at_ceiling :
    exists h k',
      solo Removed.einval 1 (attachStack 0 5 32768) (Kernel.empty 65536) =
        some (Except.ok (some h), k') ∧
        ¬ Lossless Removed.einval 1 h k'
          (List.replicate 32768 (0, Request.push 7)) := by
  have hattach : exists h k',
      solo Removed.einval 1 (attachStack 0 5 32768) (Kernel.empty 65536) =
        some (Except.ok (some h), k') ∧ h.size = 32768 ∧
        Holds k' 1 h { count := 0, memory := fun _ => 0 } 1 := by
    refine ⟨_, _, rfl, rfl, ⟨_, rfl, rfl, rfl⟩, ⟨_, rfl, rfl, rfl⟩, ?_⟩
    intro herr
    cases herr
  rcases hattach with ⟨h, k', hrun, hsize, hk⟩
  refine ⟨h, k', hrun, ?_⟩
  intro hlossless
  have hlegal : Contents.Legal { count := 0, memory := fun _ => 0 } := by
    simp [Contents.Legal, SEMVMX]
  -- The first 32767 pushes bring COUNT to its ceiling.
  rcases run_pushes Removed.einval 7 32767 { kernel := k', trace := [] } hk
    hlegal (by rw [hsize]; decide) (by decide) with
    ⟨s, c, hpushes, hs, hc, hcount⟩
  have hsplit : List.replicate 32768 ((0 : Int), Request.push 7) =
      List.replicate 32767 (0, Request.push 7) ++ [(0, Request.push 7)] :=
    List.replicate_succ'
  have hroom := room_of_pushKept (Or.inl ⟨c, hs, hc⟩)
    (hlossless.kept _ 0 7 [] s hsplit hpushes)
  rcases hs.set with ⟨set, hset, hval, _⟩
  have hbelow := hroom set hset (Or.inr (Or.inl rfl))
    (by rw [hsize]; decide)
  rw [hval, hcount] at hbelow
  exact absurd hbelow (by decide)

end Law

end Stack
end UnixPrograms
