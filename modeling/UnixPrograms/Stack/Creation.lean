import UnixPrograms.Stack.Attach
import UnixPrograms.Foundation.Transition

/-!
# Concurrent creation

Any number of processes call `attach_stack` with one key and one size when no
object with that key exists.  The creating `shmget` of a second process finds
the segment of the first, and a process that finds the segment may look for
the semaphore set before it exists; both end the call without a handle.  In
every other run all processes get the same segment and the same set.
-/

namespace UnixPrograms
namespace Stack

open Foundation
open Ipc

structure AttachConfig where
  key : Int
  size : Int
  wait : Pid -> Int

inductive Progress where
  | waiting
  | running (code : Prog (Option StackT))

structure AttachState where
  kernel : Kernel
  progress : Pid -> Progress

inductive AttachLabel where
  | begin (p : Pid)
  | atom (p : Pid) (removed : Removed)

def AttachState.setProgress (s : AttachState) (p : Pid)
    (progress : Progress) : AttachState :=
  { s with progress := Function.update s.progress p progress }

def attachStep (cfg : AttachConfig) (s : AttachState) :
    AttachLabel -> Option AttachState
  | AttachLabel.begin p =>
      match s.progress p with
      | Progress.waiting =>
          some
            (s.setProgress p
              (Progress.running (attachStack (cfg.wait p) cfg.key cfg.size)))
      | _ => none
  | AttachLabel.atom p removed =>
      match s.progress p with
      | Progress.running code =>
          match Program.step (fun op k => k.exec removed p op) code s.kernel with
          | none => none
          | some (code', kernel) =>
              some
                { s.setProgress p (Progress.running code') with
                  kernel := kernel }
      | _ => none

structure Unused (cfg : AttachConfig) (s : AttachState) : Prop where
  waiting : forall p, s.progress p = Progress.waiting
  segment : s.kernel.shmKeys cfg.key = none
  set : s.kernel.semKeys cfg.key = none
  shmIds : 0 < s.kernel.nextShm
  semIds : 0 < s.kernel.nextSem

/-- The arguments are ones with which an object can be created and found
again. -/
structure Creatable (cfg : AttachConfig) (k : Kernel) : Prop where
  key : cfg.key ≠ IPC_PRIVATE
  low : SHMMIN ≤ sizeT cfg.size
  high : sizeT cfg.size ≤ k.shmmax

def AttachState.Returned (s : AttachState) (p : Pid)
    (handle : Option StackT) : Prop :=
  s.progress p = Progress.running (Program.ret handle)

/-- No call has failed, all handles agree, and when every call is over the
set is initialised. -/
structure Agreed (s : AttachState) : Prop where
  alive : forall p reason,
    s.progress p ≠ Progress.running (Program.halt reason)
  handle : forall p, ¬ s.Returned p none
  same : forall p q h h', s.Returned p (some h) -> s.Returned q (some h') ->
    h = h'
  initialised : forall p h, s.Returned p (some h) ->
    (forall q, s.progress q = Progress.waiting ∨
      exists h', s.Returned q (some h')) ->
    exists seg set, s.kernel.segs h.shmemId = some seg ∧
      h.memory = h.shmemId ∧ s.kernel.sets h.semId = some set ∧
      set.val SEM_COUNT = 0 ∧ set.val SEM_FLAG = 1

def Progress.nextOp : Progress -> Option Op
  | Progress.waiting => none
  | Progress.running code => code.nextOp

/-- Nobody creates the segment while it exists, who creates it has a documented
wait mode, and nobody looks for the set before it exists. -/
def OneCreator (cfg : AttachConfig) (s : AttachState) : AttachLabel -> Prop
  | AttachLabel.begin _ => True
  | AttachLabel.atom p _ =>
      ((s.progress p).nextOp =
          some (Op.shmget cfg.key cfg.size shmgetCreatExcl) ->
        s.kernel.shmKeys cfg.key = none ∧ ValidWait (cfg.wait p)) ∧
        ((s.progress p).nextOp = some (Op.semget cfg.key 2 shmgetExcl) ->
          s.kernel.semKeys cfg.key ≠ none)

instance (cfg : AttachConfig) (s : AttachState) (l : AttachLabel) :
    Decidable (OneCreator cfg s l) :=
  match l with
  | AttachLabel.begin _ => isTrue trivial
  | AttachLabel.atom _ _ => inferInstanceAs (Decidable (_ ∧ _))

/-!
## The point machine of `attach_stack`

As for push and pop, the points stand for the remaining code.
-/

inductive AttachAdvance (removed : Removed) (p : Pid)
    (timeoutFlag key size : Int) :
    AttachPoint -> Kernel -> AttachPoint -> Kernel -> Prop where
  | probe {k k' : Kernel} {answer : Answer} :
      k.shmget p key size shmgetExcl = (answer, k') ->
      AttachAdvance removed p timeoutFlag key size AttachPoint.probe k
        (if 0 < answer.ret then AttachPoint.mapFound answer.ret
          else if answer.errno = Errno.einval then AttachPoint.done none
          else AttachPoint.create) k'
  | mapFound {k k' : Kernel} {shmemId : Int} {answer : Answer} :
      k.shmat removed p shmemId = (answer, k') ->
      AttachAdvance removed p timeoutFlag key size
        (AttachPoint.mapFound shmemId) k
        (AttachPoint.lookup shmemId answer.ret) k'
  | lookup {k k' : Kernel} {shmemId memory : Int} {answer : Answer} :
      k.semget p key shmgetExcl = (answer, k') ->
      AttachAdvance removed p timeoutFlag key size
        (AttachPoint.lookup shmemId memory) k
        (if answer.ret ≤ 0 then AttachPoint.done none
          else AttachPoint.done
            (some (AttachPoint.handle size shmemId memory answer.ret))) k'
  | create {k k' : Kernel} {answer : Answer} :
      k.shmget p key size shmgetCreatExcl = (answer, k') ->
      AttachAdvance removed p timeoutFlag key size AttachPoint.create k
        (if 0 < answer.ret then AttachPoint.mapNew answer.ret
          else AttachPoint.aborted) k'
  | mapNew {k k' : Kernel} {shmemId : Int} {answer : Answer} :
      k.shmat removed p shmemId = (answer, k') ->
      AttachAdvance removed p timeoutFlag key size
        (AttachPoint.mapNew shmemId) k
        (AttachPoint.createSet shmemId answer.ret) k'
  | createSet {k k' : Kernel} {shmemId memory : Int} {answer : Answer} :
      k.semget p key shmgetCreatExcl = (answer, k') ->
      AttachAdvance removed p timeoutFlag key size
        (AttachPoint.createSet shmemId memory) k
        (if answer.errno = Errno.eexist ∨ answer.ret ≤ 0 then
            AttachPoint.done none
          else if ValidWait timeoutFlag then
            AttachPoint.raiseFlag shmemId memory answer.ret
          else AttachPoint.done
            (some (AttachPoint.handle size shmemId memory answer.ret))) k'
  | raiseFlag {k k' : Kernel} {shmemId memory semId : Int}
      {answer : Answer} :
      k.semop removed p semId SEM_FLAG 1 (initFlags timeoutFlag) =
        some (answer, k') ->
      AttachAdvance removed p timeoutFlag key size
        (AttachPoint.raiseFlag shmemId memory semId) k
        (AttachPoint.done
          (some (AttachPoint.handle size shmemId memory semId))) k'

theorem attachAdvance_of_call {removed : Removed} {p : Pid}
    {timeoutFlag key size : Int} {point : AttachPoint} {op : Op}
    {next : op.Res -> Prog (Option StackT)} {answer : op.Res}
    {k k' : Kernel}
    (hcode : point.code timeoutFlag key size = Program.call op next)
    (hexec : k.exec removed p op = some (answer, k')) :
    exists point', next answer = point'.code timeoutFlag key size ∧
      AttachAdvance removed p timeoutFlag key size point k point' k' := by
  cases point with
  | probe =>
      cases hcode
      injection hexec with hexec
      refine ⟨_, ?_, AttachAdvance.probe hexec⟩
      by_cases hfound : 0 < answer.ret
      · simp only [if_pos hfound, AttachPoint.code]
      · by_cases heinval : answer.errno = Errno.einval
        · simp only [if_neg hfound, if_pos heinval, AttachPoint.code]
        · simp only [if_neg hfound, if_neg heinval, AttachPoint.code]
  | mapFound shmemId =>
      cases hcode
      injection hexec with hexec
      exact ⟨_, rfl, AttachAdvance.mapFound hexec⟩
  | lookup shmemId memory =>
      cases hcode
      injection hexec with hexec
      refine ⟨_, ?_, AttachAdvance.lookup hexec⟩
      by_cases hsem : answer.ret ≤ 0
      · simp only [if_pos hsem, AttachPoint.code]
      · simp only [if_neg hsem, AttachPoint.code]
  | create =>
      cases hcode
      injection hexec with hexec
      refine ⟨_, ?_, AttachAdvance.create hexec⟩
      by_cases hshm : 0 < answer.ret
      · simp only [if_pos hshm, AttachPoint.code]
      · simp only [if_neg hshm, AttachPoint.code]
  | mapNew shmemId =>
      cases hcode
      injection hexec with hexec
      exact ⟨_, rfl, AttachAdvance.mapNew hexec⟩
  | createSet shmemId memory =>
      cases hcode
      injection hexec with hexec
      refine ⟨_, ?_, AttachAdvance.createSet hexec⟩
      by_cases hbad : answer.errno = Errno.eexist ∨ answer.ret ≤ 0
      · simp only [if_pos hbad, AttachPoint.code]
      · by_cases hwait : ValidWait timeoutFlag
        · simp only [if_neg hbad, if_pos hwait, AttachPoint.code]
        · simp only [if_neg hbad, if_neg hwait, AttachPoint.code]
  | raiseFlag shmemId memory semId =>
      cases hcode
      exact ⟨_, rfl, AttachAdvance.raiseFlag hexec⟩
  | done handle => cases hcode
  | aborted => cases hcode

structure AttachMachine where
  kernel : Kernel
  view : Pid -> Option AttachPoint

namespace AttachMachine

def progress (cfg : AttachConfig) (p : Pid) :
    Option AttachPoint -> Progress
  | none => Progress.waiting
  | some point =>
      Progress.running (point.code (cfg.wait p) cfg.key cfg.size)

def toState (cfg : AttachConfig) (m : AttachMachine) : AttachState where
  kernel := m.kernel
  progress := fun p => progress cfg p (m.view p)

def move (m : AttachMachine) (p : Pid) (point : AttachPoint)
    (kernel : Kernel) : AttachMachine where
  kernel := kernel
  view := Function.update m.view p (some point)

theorem move_view_self (m : AttachMachine) (p : Pid) (point : AttachPoint)
    (kernel : Kernel) : (m.move p point kernel).view p = some point := by
  simp [move]

theorem move_view_of_ne (m : AttachMachine) {p q : Pid}
    (point : AttachPoint) (kernel : Kernel) (h : q ≠ p) :
    (m.move p point kernel).view q = m.view q := by
  simp [move, h]

theorem toState_move (cfg : AttachConfig) (m : AttachMachine) (p : Pid)
    (point : AttachPoint) (kernel : Kernel) :
    (m.move p point kernel).toState cfg =
      { (m.toState cfg).setProgress p (progress cfg p (some point)) with
        kernel := kernel } := by
  unfold toState AttachState.setProgress move
  congr 1
  funext q
  by_cases hq : q = p
  · subst hq
    simp
  · simp [hq]

end AttachMachine

inductive AttachPointStep (cfg : AttachConfig) :
    AttachMachine -> AttachLabel -> AttachMachine -> Prop where
  | begin {m : AttachMachine} {p : Pid} :
      m.view p = none ->
      AttachPointStep cfg m (AttachLabel.begin p)
        (m.move p AttachPoint.probe m.kernel)
  | advance {m : AttachMachine} {p : Pid} {removed : Removed}
      {point point' : AttachPoint} {kernel : Kernel} :
      m.view p = some point ->
      AttachAdvance removed p (cfg.wait p) cfg.key cfg.size point m.kernel
        point' kernel ->
      AttachPointStep cfg m (AttachLabel.atom p removed)
        (m.move p point' kernel)

section Simulation

variable {cfg : AttachConfig} {m : AttachMachine}

theorem attach_progress {p : Pid} {view : Option AttachPoint}
    (h : m.view p = view) :
    (m.toState cfg).progress p = AttachMachine.progress cfg p view := by
  rw [← h]
  rfl

/-- Every step of the code is a step of the point machine. -/
theorem attachStep_point {l : AttachLabel} {s' : AttachState}
    (h : attachStep cfg (m.toState cfg) l = some s') :
    exists m', s' = m'.toState cfg ∧ AttachPointStep cfg m l m' := by
  cases l with
  | begin p =>
      cases hview : m.view p with
      | none =>
          simp only [attachStep, attach_progress hview,
            AttachMachine.progress] at h
          injection h with hs
          subst hs
          refine ⟨_, ?_, AttachPointStep.begin hview⟩
          rw [AttachMachine.toState_move, attachStack_code_eq]
          rfl
      | some point =>
          simp [attachStep, attach_progress hview,
            AttachMachine.progress] at h
  | atom p removed =>
      cases hview : m.view p with
      | none =>
          simp [attachStep, attach_progress hview,
            AttachMachine.progress] at h
      | some point =>
          simp only [attachStep, attach_progress hview,
            AttachMachine.progress] at h
          cases hcode : point.code (cfg.wait p) cfg.key cfg.size with
          | ret handle =>
              rw [hcode] at h
              cases h
          | halt reason =>
              rw [hcode] at h
              cases h
          | call op next =>
              rw [hcode] at h
              cases hstep : Program.step (fun op k => k.exec removed p op)
                  (Program.call op next) (m.toState cfg).kernel with
              | none =>
                  rw [hstep] at h
                  cases h
              | some stepped =>
                  rcases stepped with ⟨code', kernel⟩
                  rw [hstep] at h
                  injection h with hs
                  subst hs
                  rcases Program.step_call_eq_some hstep with
                    ⟨answer, hexec, hcode'⟩
                  subst hcode'
                  rcases attachAdvance_of_call hcode hexec with
                    ⟨point', hnext, hadvance⟩
                  refine ⟨_, ?_, AttachPointStep.advance hview hadvance⟩
                  rw [AttachMachine.toState_move, hnext]
                  rfl

end Simulation

/-!
## The invariant

Before the segment exists everybody is at the probe or about to create.
Afterwards one process, the creator, goes on to create the set and to raise
FLAG, and everybody else follows through the objects found by key.
-/

def Early : Option AttachPoint -> Prop
  | none => True
  | some AttachPoint.probe => True
  | some AttachPoint.create => True
  | _ => False

def Follower (size segId : Int) (semKey : Option Int) :
    Option AttachPoint -> Prop
  | none => True
  | some AttachPoint.probe => True
  | some AttachPoint.create => True
  | some (AttachPoint.mapFound shmemId) => shmemId = segId
  | some (AttachPoint.lookup shmemId memory) =>
      shmemId = segId ∧ memory = segId
  | some (AttachPoint.done (some h)) =>
      exists semId, semKey = some semId ∧
        h = AttachPoint.handle size segId segId semId
  | _ => False

structure Before (cfg : AttachConfig) (m : AttachMachine) : Prop where
  segment : m.kernel.shmKeys cfg.key = none
  set : m.kernel.semKeys cfg.key = none
  shmIds : 0 < m.kernel.nextShm
  semIds : 0 < m.kernel.nextSem
  room : sizeT cfg.size ≤ m.kernel.shmmax
  early : forall p, Early (m.view p)
  errno : forall p, m.view p = some AttachPoint.create ->
    m.kernel.errno p ≠ Errno.eexist

/-- How far the creator has come. -/
inductive CreatorAt (cfg : AttachConfig) (m : AttachMachine) (segId : Int)
    (creator : Pid) : Prop where
  | making : m.kernel.semKeys cfg.key = none -> 0 < m.kernel.nextSem ->
      m.kernel.errno creator ≠ Errno.eexist ->
      (m.view creator = some (AttachPoint.mapNew segId) ∨
        m.view creator = some (AttachPoint.createSet segId segId)) ->
      CreatorAt cfg m segId creator
  | raising (semId : Int) (set : SemSet) :
      m.kernel.semKeys cfg.key = some semId -> 0 < semId ->
      m.kernel.sets semId = some set -> set.val SEM_COUNT = 0 ->
      set.val SEM_FLAG = 0 ->
      m.view creator = some (AttachPoint.raiseFlag segId segId semId) ->
      CreatorAt cfg m segId creator
  | ready (semId : Int) (set : SemSet) :
      m.kernel.semKeys cfg.key = some semId -> 0 < semId ->
      m.kernel.sets semId = some set -> set.val SEM_COUNT = 0 ->
      set.val SEM_FLAG = 1 ->
      m.view creator =
        some (AttachPoint.done
          (some (AttachPoint.handle cfg.size segId segId semId))) ->
      CreatorAt cfg m segId creator

structure Created (cfg : AttachConfig) (m : AttachMachine) (segId : Int)
    (creator : Pid) : Prop where
  segment : m.kernel.shmKeys cfg.key = some segId
  pos : 0 < segId
  wait : ValidWait (cfg.wait creator)
  mapped : exists seg, m.kernel.segs segId = some seg ∧
    sizeT cfg.size ≤ seg.size
  stage : CreatorAt cfg m segId creator
  followers : forall p, p ≠ creator ->
    Follower cfg.size segId (m.kernel.semKeys cfg.key) (m.view p)

def CreationInv (cfg : AttachConfig) (m : AttachMachine) : Prop :=
  Before cfg m ∨ exists segId creator, Created cfg m segId creator

section Invariant

variable {cfg : AttachConfig} {m : AttachMachine} {p creator : Pid}
  {segId : Int} {removed : Removed} {point point' : AttachPoint}
  {kernel : Kernel}

theorem Follower.of_early {size : Int} {semKey : Option Int}
    {view : Option AttachPoint} (h : Early view) :
    Follower size segId semKey view := by
  cases view with
  | none => trivial
  | some point => cases point <;> trivial

theorem Follower.mono {size : Int} {semKey semKey' : Option Int}
    {view : Option AttachPoint} (h : Follower size segId semKey view)
    (hkey : forall semId, semKey = some semId -> semKey' = some semId) :
    Follower size segId semKey' view := by
  cases view with
  | none => trivial
  | some point =>
      cases point with
      | done handle =>
          cases handle with
          | none => cases h
          | some handle =>
              rcases h with ⟨semId, hsem, hhandle⟩
              exact ⟨semId, hkey semId hsem, hhandle⟩
      | _ => exact h

theorem Created.follow (h : Created cfg m segId creator) (hp : p ≠ creator)
    (hshm : kernel.shmKeys = m.kernel.shmKeys)
    (hsem : kernel.semKeys = m.kernel.semKeys)
    (hsets : kernel.sets = m.kernel.sets)
    (hnext : kernel.nextSem = m.kernel.nextSem)
    (herrno : kernel.errno = m.kernel.errno)
    (hmapped : exists seg, kernel.segs segId = some seg ∧
      sizeT cfg.size ≤ seg.size)
    (hview : Follower cfg.size segId (m.kernel.semKeys cfg.key)
      (some point)) :
    Created cfg (m.move p point kernel) segId creator := by
  have hcreator := AttachMachine.move_view_of_ne m point kernel (Ne.symm hp)
  refine ⟨?_, h.pos, h.wait, hmapped, ?_, ?_⟩
  · change kernel.shmKeys cfg.key = some segId
    rw [hshm]
    exact h.segment
  · cases h.stage with
    | making hset hids herr hat =>
        refine CreatorAt.making ?_ ?_ ?_ ?_
        · change kernel.semKeys cfg.key = none
          rw [hsem]
          exact hset
        · change 0 < kernel.nextSem
          rw [hnext]
          exact hids
        · change kernel.errno creator ≠ Errno.eexist
          rw [herrno]
          exact herr
        · rw [hcreator]
          exact hat
    | raising semId set hkey hpos hset hcount hflag hat =>
        refine CreatorAt.raising semId set ?_ hpos ?_ hcount hflag ?_
        · change kernel.semKeys cfg.key = some semId
          rw [hsem]
          exact hkey
        · change kernel.sets semId = some set
          rw [hsets]
          exact hset
        · rw [hcreator]
          exact hat
    | ready semId set hkey hpos hset hcount hflag hat =>
        refine CreatorAt.ready semId set ?_ hpos ?_ hcount hflag ?_
        · change kernel.semKeys cfg.key = some semId
          rw [hsem]
          exact hkey
        · change kernel.sets semId = some set
          rw [hsets]
          exact hset
        · rw [hcreator]
          exact hat
  · intro q hq
    change Follower cfg.size segId (kernel.semKeys cfg.key) _
    rw [hsem]
    by_cases hqp : q = p
    · subst hqp
      rw [AttachMachine.move_view_self]
      exact hview
    · rw [AttachMachine.move_view_of_ne m point kernel hqp]
      exact h.followers q hq

theorem Created.lead (h : Created cfg m segId creator)
    (hshm : kernel.shmKeys = m.kernel.shmKeys)
    (hsem : forall semId, m.kernel.semKeys cfg.key = some semId ->
      kernel.semKeys cfg.key = some semId)
    (hmapped : exists seg, kernel.segs segId = some seg ∧
      sizeT cfg.size ≤ seg.size)
    (hcreator : CreatorAt cfg (m.move creator point kernel) segId creator) :
    Created cfg (m.move creator point kernel) segId creator := by
  refine ⟨?_, h.pos, h.wait, hmapped, hcreator, ?_⟩
  · change kernel.shmKeys cfg.key = some segId
    rw [hshm]
    exact h.segment
  · intro q hq
    rw [AttachMachine.move_view_of_ne m point kernel hq]
    exact (h.followers q hq).mono hsem

theorem mapped_setSeg {k : Kernel} (seg : Segment)
    (hsize : sizeT cfg.size ≤ seg.size) :
    exists seg', (k.setSeg segId (some seg)).segs segId = some seg' ∧
      sizeT cfg.size ≤ seg'.size :=
  ⟨seg, Kernel.setSeg_segs_self _ _ _, hsize⟩

theorem guard_at
    (hguard : OneCreator cfg (m.toState cfg) (AttachLabel.atom p removed))
    (hview : m.view p = some point) :
    ((point.code (cfg.wait p) cfg.key cfg.size).nextOp =
        some (Op.shmget cfg.key cfg.size shmgetCreatExcl) ->
      m.kernel.shmKeys cfg.key = none ∧ ValidWait (cfg.wait p)) ∧
      ((point.code (cfg.wait p) cfg.key cfg.size).nextOp =
          some (Op.semget cfg.key 2 shmgetExcl) ->
        m.kernel.semKeys cfg.key ≠ none) := by
  have hprogress : (m.toState cfg).progress p = _ := attach_progress hview
  simp only [OneCreator, hprogress] at hguard
  exact hguard

theorem before_create (h : Before cfg m) (hkey : cfg.key ≠ IPC_PRIVATE)
    (hlow : SHMMIN ≤ sizeT cfg.size) (hwait : ValidWait (cfg.wait p))
    (hview : m.view p = some AttachPoint.create) {answer : Answer}
    (hop : m.kernel.shmget p cfg.key cfg.size shmgetCreatExcl =
      (answer, kernel)) :
    Created cfg
      (m.move p
        (if 0 < answer.ret then AttachPoint.mapNew answer.ret
          else AttachPoint.aborted) kernel)
      m.kernel.nextShm p := by
  rw [shmget_create p h.segment rfl, shmCreate_ok p hlow h.room] at hop
  cases hop
  rw [Kernel.ok_ret, if_pos h.shmIds]
  refine ⟨?_, h.shmIds, hwait, ?_, ?_, ?_⟩
  · exact Kernel.newSeg_shmKeys _ _ hkey
  · exact ⟨_, Kernel.newSeg_segs_self _ _ _, Nat.le_refl _⟩
  · refine CreatorAt.making h.set h.semIds (h.errno p hview) (Or.inl ?_)
    exact AttachMachine.move_view_self m _ _ _
  · intro q hq
    rw [AttachMachine.move_view_of_ne m _ _ hq]
    exact Follower.of_early (h.early q)

theorem before_probe (h : Before cfg m) (hkey : cfg.key ≠ IPC_PRIVATE)
    {answer : Answer}
    (hop : m.kernel.shmget p cfg.key cfg.size shmgetExcl =
      (answer, kernel)) :
    Before cfg
      (m.move p
        (if 0 < answer.ret then AttachPoint.mapFound answer.ret
          else if answer.errno = Errno.einval then AttachPoint.done none
          else AttachPoint.create) kernel) := by
  rw [shmget_missing p hkey h.segment rfl] at hop
  cases hop
  refine ⟨h.segment, h.set, h.shmIds, h.semIds, h.room, ?_, ?_⟩
  · intro q
    by_cases hq : q = p
    · subst hq
      rw [AttachMachine.move_view_self, if_neg (by simp), if_neg (by simp)]
      trivial
    · rw [AttachMachine.move_view_of_ne m _ _ hq]
      exact h.early q
  · intro q hview
    by_cases hq : q = p
    · subst hq
      change (m.kernel.fail q Errno.enoent).2.errno q ≠ Errno.eexist
      rw [Kernel.fail_errno_self]
      decide
    · rw [AttachMachine.move_view_of_ne m _ _ hq] at hview
      change (m.kernel.fail p Errno.enoent).2.errno q ≠ Errno.eexist
      rw [Kernel.fail_errno_of_ne _ _ hq]
      exact h.errno q hview

theorem created_follower (h : Created cfg m segId creator)
    (hkey : cfg.key ≠ IPC_PRIVATE) (hp : p ≠ creator)
    (hview : m.view p = some point)
    (hguard : OneCreator cfg (m.toState cfg) (AttachLabel.atom p removed))
    (hadvance : AttachAdvance removed p (cfg.wait p) cfg.key cfg.size point
      m.kernel point' kernel) :
    Created cfg (m.move p point' kernel) segId creator := by
  have hfollower := h.followers p hp
  rw [hview] at hfollower
  rcases h.mapped with ⟨seg, hseg, hsize⟩
  cases hadvance with
  | probe hop =>
      rw [shmget_found p hkey h.segment hseg rfl hsize] at hop
      cases hop
      rw [Kernel.ok_ret, if_pos h.pos]
      exact h.follow hp rfl rfl rfl rfl rfl h.mapped rfl
  | mapFound hop =>
      have hid : _ = segId := hfollower
      subst hid
      rw [shmat_some p removed hseg] at hop
      cases hop
      exact h.follow hp rfl rfl rfl rfl rfl (mapped_setSeg _ hsize) ⟨rfl, rfl⟩
  | lookup hop =>
      have hset := (guard_at hguard hview).right rfl
      cases hsem : m.kernel.semKeys cfg.key with
      | none => exact absurd hsem hset
      | some semId =>
          rw [semget_found p hkey hsem rfl] at hop
          cases hop
          have hpos : ¬ semId ≤ 0 := by
            cases h.stage with
            | making hnone _ _ _ =>
                rw [hnone] at hsem
                cases hsem
            | raising semId' _ hsem' hpos _ _ _ _ =>
                rw [hsem'] at hsem
                cases hsem
                lia
            | ready semId' _ hsem' hpos _ _ _ _ =>
                rw [hsem'] at hsem
                cases hsem
                lia
          rcases hfollower with ⟨hid, hmemory⟩
          subst hid
          subst hmemory
          rw [Kernel.ok_ret, if_neg hpos]
          exact h.follow hp rfl rfl rfl rfl rfl h.mapped ⟨semId, hsem, rfl⟩
  | create hop =>
      have hnone := ((guard_at hguard hview).left rfl).left
      rw [h.segment] at hnone
      cases hnone
  | mapNew hop => cases hfollower
  | createSet hop => cases hfollower
  | raiseFlag hop => cases hfollower

theorem created_creator (h : Created cfg m segId creator)
    (hkey : cfg.key ≠ IPC_PRIVATE) (hview : m.view creator = some point)
    (hadvance : AttachAdvance removed creator (cfg.wait creator) cfg.key
      cfg.size point m.kernel point' kernel) :
    Created cfg (m.move creator point' kernel) segId creator := by
  have hself := AttachMachine.move_view_self m creator
  rcases h.mapped with ⟨seg, hseg, hsize⟩
  cases h.stage with
  | making hset hids herr hat =>
      rw [hview] at hat
      rcases hat with hat | hat
      · injection hat with hat
        subst hat
        cases hadvance with
        | mapNew hop =>
            rw [shmat_some creator removed hseg] at hop
            cases hop
            exact h.lead rfl (fun _ hsem => hsem) (mapped_setSeg _ hsize)
              (CreatorAt.making hset hids herr (Or.inr (hself _ _)))
      · injection hat with hat
        subst hat
        cases hadvance with
        | createSet hop =>
            rw [semget_create creator hset rfl] at hop
            cases hop
            have hbad : ¬ ((m.kernel.ok creator m.kernel.nextSem).errno =
                Errno.eexist ∨
                  (m.kernel.ok creator m.kernel.nextSem).ret ≤ 0) := by
              intro hor
              rcases hor with hexist | hle
              · exact herr hexist
              · rw [Kernel.ok_ret] at hle
                lia
            rw [if_neg hbad, if_pos h.wait]
            refine h.lead rfl ?_ h.mapped ?_
            · intro semId hsem
              rw [hset] at hsem
              cases hsem
            · exact CreatorAt.raising m.kernel.nextSem (SemSet.new cfg.key)
                (Kernel.newSem_semKeys _ hkey) hids
                (Kernel.newSem_sets_self _ _) rfl rfl (hself _ _)
  | raising semId set hsem hpos hset hcount hflag hat =>
      rw [hview] at hat
      injection hat with hat
      subst hat
      cases hadvance with
      | raiseFlag hop =>
          rw [semop_applied removed creator (initFlags (cfg.wait creator))
            hset (by rw [hflag]; decide) (by rw [hflag]; decide)] at hop
          cases hop
          refine h.lead rfl (fun _ hsem => hsem) h.mapped ?_
          refine CreatorAt.ready semId _ hsem hpos
            (Kernel.setSem_sets_self _ _ _) ?_ ?_ (hself _ _)
          · rw [SemSet.apply_val_of_ne _ _ _ _ (by decide)]
            exact hcount
          · rw [SemSet.apply_val_self, hflag]
            rfl
  | ready semId set hsem hpos hset hcount hflag hat =>
      rw [hview] at hat
      injection hat with hat
      subst hat
      cases hadvance

theorem creationInv_step {l : AttachLabel} {m' : AttachMachine}
    (hkey : cfg.key ≠ IPC_PRIVATE) (hlow : SHMMIN ≤ sizeT cfg.size)
    (h : CreationInv cfg m)
    (hguard : OneCreator cfg (m.toState cfg) l)
    (hstep : AttachPointStep cfg m l m') : CreationInv cfg m' := by
  cases hstep with
  | begin hview =>
      rename_i p
      rcases h with hbefore | ⟨segId, creator, hcreated⟩
      · left
        refine ⟨hbefore.segment, hbefore.set, hbefore.shmIds, hbefore.semIds,
          hbefore.room, ?_, ?_⟩
        · intro q
          by_cases hq : q = p
          · subst hq
            rw [AttachMachine.move_view_self]
            trivial
          · rw [AttachMachine.move_view_of_ne m _ _ hq]
            exact hbefore.early q
        · intro q hat
          by_cases hq : q = p
          · subst hq
            rw [AttachMachine.move_view_self] at hat
            cases hat
          · rw [AttachMachine.move_view_of_ne m _ _ hq] at hat
            exact hbefore.errno q hat
      · right
        have hp : p ≠ creator := by
          intro heq
          subst heq
          cases hcreated.stage with
          | making _ _ _ hat =>
              rw [hview] at hat
              rcases hat with hat | hat <;> cases hat
          | raising _ _ _ _ _ _ _ hat =>
              rw [hview] at hat
              cases hat
          | ready _ _ _ _ _ _ _ hat =>
              rw [hview] at hat
              cases hat
        exact ⟨segId, creator,
          hcreated.follow hp rfl rfl rfl rfl rfl hcreated.mapped trivial⟩
  | advance hview hadvance =>
      rename_i p removed point point' kernel
      rcases h with hbefore | ⟨segId, creator, hcreated⟩
      · have hearly := hbefore.early p
        rw [hview] at hearly
        cases hadvance with
        | probe hop => exact Or.inl (before_probe hbefore hkey hop)
        | create hop =>
            have hwait := ((guard_at hguard hview).left rfl).right
            exact Or.inr
              ⟨_, p, before_create hbefore hkey hlow hwait hview hop⟩
        | _ => cases hearly
      · right
        by_cases hp : p = creator
        · subst hp
          exact ⟨segId, p, created_creator hcreated hkey hview hadvance⟩
        · exact ⟨segId, creator, created_follower hcreated hkey hp hview hguard
            hadvance⟩

end Invariant

/-!
## Every run
-/

section Runs

variable {cfg : AttachConfig} {m : AttachMachine} {s0 s : AttachState}
  {labels : List AttachLabel}

theorem attach_code_eq_ret {timeoutFlag key size : Int}
    {point : AttachPoint} {handle : Option StackT}
    (h : point.code timeoutFlag key size = Program.ret handle) :
    point = AttachPoint.done handle := by
  cases point with
  | done other =>
      cases h
      rfl
  | _ => cases h

theorem attach_code_eq_halt {timeoutFlag key size : Int}
    {point : AttachPoint} {reason : Exit}
    (h : point.code timeoutFlag key size = Program.halt reason) :
    point = AttachPoint.aborted := by
  cases point with
  | aborted => rfl
  | _ => cases h

theorem view_of_returned {p : Pid} {handle : Option StackT}
    (h : (m.toState cfg).Returned p handle) :
    m.view p = some (AttachPoint.done handle) := by
  unfold AttachState.Returned at h
  rw [attach_progress rfl] at h
  cases hview : m.view p with
  | none =>
      rw [hview] at h
      cases h
  | some point =>
      rw [hview] at h
      injection h with hcode
      rw [attach_code_eq_ret hcode]

theorem view_of_halted {p : Pid} {reason : Exit}
    (h : (m.toState cfg).progress p =
      Progress.running (Program.halt reason)) :
    m.view p = some AttachPoint.aborted := by
  rw [attach_progress rfl] at h
  cases hview : m.view p with
  | none =>
      rw [hview] at h
      cases h
  | some point =>
      rw [hview] at h
      injection h with hcode
      rw [attach_code_eq_halt hcode]

theorem Created.handle_of_done {segId : Int} {creator p : Pid}
    {handle : Option StackT} (h : Created cfg m segId creator)
    (hview : m.view p = some (AttachPoint.done handle)) :
    exists semId, m.kernel.semKeys cfg.key = some semId ∧
      handle = some (AttachPoint.handle cfg.size segId segId semId) := by
  by_cases hp : p = creator
  · subst hp
    cases h.stage with
    | making _ _ _ hat =>
        rw [hview] at hat
        rcases hat with hat | hat <;> cases hat
    | raising _ _ _ _ _ _ _ hat =>
        rw [hview] at hat
        cases hat
    | ready semId _ hsem _ _ _ _ hat =>
        rw [hview] at hat
        cases hat
        exact ⟨semId, hsem, rfl⟩
  · have hfollower := h.followers p hp
    rw [hview] at hfollower
    cases handle with
    | none => cases hfollower
    | some handle =>
        rcases hfollower with ⟨semId, hsem, hhandle⟩
        exact ⟨semId, hsem, by rw [hhandle]⟩

theorem Created.not_aborted {segId : Int} {creator p : Pid}
    (h : Created cfg m segId creator) :
    m.view p ≠ some AttachPoint.aborted := by
  intro hview
  by_cases hp : p = creator
  · subst hp
    cases h.stage with
    | making _ _ _ hat =>
        rw [hview] at hat
        rcases hat with hat | hat <;> cases hat
    | raising _ _ _ _ _ _ _ hat =>
        rw [hview] at hat
        cases hat
    | ready _ _ _ _ _ _ _ hat =>
        rw [hview] at hat
        cases hat
  · have hfollower := h.followers p hp
    rw [hview] at hfollower
    cases hfollower

theorem agreed_of_created {segId : Int} {creator : Pid}
    (h : Created cfg m segId creator) : Agreed (m.toState cfg) where
  alive := fun p reason hhalt => h.not_aborted (view_of_halted hhalt)
  handle := by
    intro p hreturned
    rcases h.handle_of_done (view_of_returned hreturned) with ⟨_, _, hnone⟩
    cases hnone
  same := by
    intro p q hp hq hreturned hreturned'
    rcases h.handle_of_done (view_of_returned hreturned) with
      ⟨semId, hsem, hhandle⟩
    rcases h.handle_of_done (view_of_returned hreturned') with
      ⟨semId', hsem', hhandle'⟩
    rw [hsem] at hsem'
    injection hsem' with hsame
    subst hsame
    injection hhandle with hhandle
    injection hhandle' with hhandle'
    rw [hhandle, hhandle']
  initialised := by
    intro p handle hreturned hall
    rcases h.handle_of_done (view_of_returned hreturned) with
      ⟨semId, hsem, hhandle⟩
    injection hhandle with hhandle
    subst hhandle
    rcases h.mapped with ⟨seg, hseg, _⟩
    -- The creator has returned too, so FLAG has been raised.
    have hcreator : m.view creator = none ∨
        exists h', m.view creator = some (AttachPoint.done (some h')) := by
      rcases hall creator with hwaiting | ⟨h', hreturned'⟩
      · left
        rw [attach_progress rfl] at hwaiting
        cases hview : m.view creator with
        | none => rfl
        | some point =>
            rw [hview] at hwaiting
            cases hwaiting
      · exact Or.inr ⟨h', view_of_returned hreturned'⟩
    cases h.stage with
    | making _ _ _ hat =>
        rcases hat with hat | hat <;> rw [hat] at hcreator <;>
          rcases hcreator with hbad | ⟨_, hbad⟩ <;> cases hbad
    | raising _ _ _ _ _ _ _ hat =>
        rw [hat] at hcreator
        rcases hcreator with hbad | ⟨_, hbad⟩ <;> cases hbad
    | ready semId' set hsem' _ hset hcount hflag _ =>
        rw [hsem] at hsem'
        injection hsem' with hsame
        subst hsame
        exact ⟨seg, set, hseg, rfl, hset, hcount, hflag⟩

theorem agreed_of_before (h : Before cfg m) : Agreed (m.toState cfg) := by
  have hnone : forall p handle, ¬ (m.toState cfg).Returned p handle := by
    intro p handle hreturned
    have hearly := h.early p
    rw [view_of_returned hreturned] at hearly
    cases hearly
  refine ⟨?_, fun p => hnone p none, ?_, ?_⟩
  · intro p reason hhalt
    have hearly := h.early p
    rw [view_of_halted hhalt] at hearly
    cases hearly
  · intro p q hp hq hreturned
    exact absurd hreturned (hnone p _)
  · intro p handle hreturned
    exact absurd hreturned (hnone p _)

theorem unused_machine (h : Unused cfg s0) :
    exists m : AttachMachine, s0 = m.toState cfg ∧
      forall p, m.view p = none := by
  refine ⟨{ kernel := s0.kernel, view := fun _ => none }, ?_, fun _ => rfl⟩
  cases s0 with
  | mk kernel progress =>
      have hwaiting : progress = fun _ => Progress.waiting :=
        funext h.waiting
      rw [hwaiting]
      rfl

theorem before_unused (h : Unused cfg (m.toState cfg))
    (hroom : sizeT cfg.size ≤ m.kernel.shmmax)
    (hviews : forall p, m.view p = none) : Before cfg m := by
  refine ⟨h.segment, h.set, h.shmIds, h.semIds, hroom, ?_, ?_⟩
  · intro p
    rw [hviews p]
    trivial
  · intro p hview
    rw [hviews p] at hview
    cases hview

theorem attach_invariant {guard : AttachState -> AttachLabel -> Prop}
    {Inv : AttachMachine -> Prop}
    (hkeep : forall m l m', Inv m -> guard (m.toState cfg) l ->
      AttachPointStep cfg m l m' -> Inv m')
    (hm : Inv m) (hguard : AllSteps (attachStep cfg) guard (m.toState cfg) labels)
    (hrun : run (attachStep cfg) (m.toState cfg) labels = some s) :
    exists m', s = m'.toState cfg ∧ Inv m' := by
  refine run_invariant (fun s => exists m', s = m'.toState cfg ∧ Inv m')
    ?_ ⟨m, rfl, hm⟩ hguard hrun
  intro s l s' hs hl hstep
  rcases hs with ⟨m, rfl, hm⟩
  rcases attachStep_point hstep with ⟨m', hs', hpoint⟩
  exact ⟨m', hs', hkeep m l m' hm hl hpoint⟩

/-- In every run in which nobody creates the segment while it exists or with
another wait mode, or looks for the set before it exists, creation agrees. -/
theorem creation_agrees (hunused : Unused cfg s0)
    (hcreatable : Creatable cfg s0.kernel)
    (hsteps : AllSteps (attachStep cfg) (OneCreator cfg) s0 labels)
    (hrun : run (attachStep cfg) s0 labels = some s) : Agreed s := by
  rcases unused_machine hunused with ⟨m0, hs0, hviews⟩
  subst hs0
  rcases attach_invariant (fun _ _ _ h hguard hstep =>
    creationInv_step hcreatable.key hcreatable.low h hguard hstep)
    (Or.inl (before_unused hunused hcreatable.high hviews)) hsteps hrun with
    ⟨m, hs, hinv⟩
  subst hs
  rcases hinv with hbefore | ⟨segId, creator, hcreated⟩
  · exact agreed_of_before hbefore
  · exact agreed_of_created hcreated

def eightSlotsKey : AttachConfig where
  key := 5
  size := 8
  wait := fun _ => 0

def emptyStart : AttachState where
  kernel := Kernel.empty 65536
  progress := fun _ => Progress.waiting

theorem emptyStart_unused : Unused eightSlotsKey emptyStart :=
  ⟨fun _ => rfl, rfl, rfl, by decide, by decide⟩

def followedCreation : List AttachLabel :=
  [AttachLabel.begin 1, AttachLabel.begin 2] ++
    List.replicate 2 (AttachLabel.atom 1 Removed.einval) ++
    List.replicate 2 (AttachLabel.atom 2 Removed.einval) ++
    List.replicate 2 (AttachLabel.atom 1 Removed.einval) ++
    [AttachLabel.atom 2 Removed.einval, AttachLabel.atom 1 Removed.einval]

theorem creation_agrees_followed :
    exists s, run (attachStep eightSlotsKey) emptyStart followedCreation =
        some s ∧ Agreed s := by
  have hcreatable : Creatable eightSlotsKey emptyStart.kernel :=
    ⟨by decide, by decide, by decide⟩
  have hrun : exists s, run (attachStep eightSlotsKey) emptyStart
      followedCreation = some s := ⟨_, rfl⟩
  rcases hrun with ⟨s, hrun⟩
  exact ⟨s, hrun, creation_agrees emptyStart_unused hcreatable (by decide)
    hrun⟩

/-- Two processes that both find no segment: the second one to create it
fails its assertion. -/
theorem creation_aborts :
    Unused eightSlotsKey emptyStart ∧
      exists s,
        run (attachStep eightSlotsKey) emptyStart
            [AttachLabel.begin 1, AttachLabel.begin 2,
              AttachLabel.atom 1 Removed.einval,
              AttachLabel.atom 2 Removed.einval,
              AttachLabel.atom 1 Removed.einval,
              AttachLabel.atom 2 Removed.einval] = some s ∧
          s.progress 2 = Progress.running (Program.halt Exit.abort) ∧
          ¬ Agreed s := by
  refine ⟨emptyStart_unused, _, rfl, rfl, ?_⟩
  intro hagreed
  exact hagreed.alive 2 Exit.abort rfl

end Runs

end Stack
end UnixPrograms
