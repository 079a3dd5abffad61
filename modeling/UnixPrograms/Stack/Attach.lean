import UnixPrograms.Stack.Points
import UnixPrograms.Ipc.Calls

/-!
# Program points of `attach_stack`

The probe decides between two paths.  One maps the segment that was found and
looks its semaphore set up; the other creates the segment, maps it, creates
the set and raises FLAG.
-/

namespace UnixPrograms
namespace Stack

open Foundation
open Ipc

def initFlags (timeoutFlag : Int) : SemFlags where
  nowait := decide (timeoutFlag = -1)
  undo := false
  timed := decide (timeoutFlag = 1)

theorem semChange_flag_init {timeoutFlag : Int}
    (hwait : ValidWait timeoutFlag) (semId val : Int) :
    semChange timeoutFlag semId SEM_FLAG val NOT_NEED =
      semCall semId SEM_FLAG val (initFlags timeoutFlag) := by
  rcases hwait with h | h | h <;>
    simp [semChange, initFlags, SEM_COUNT, SEM_FLAG, NEED, NOT_NEED, h]

theorem semChange_flag_init_invalid {timeoutFlag : Int}
    (hwait : ¬ ValidWait timeoutFlag) (semId val : Int) :
    semChange timeoutFlag semId SEM_FLAG val NOT_NEED =
      Program.ret (-1) := by
  have hminus : timeoutFlag ≠ -1 := fun h => hwait (Or.inl h)
  have hzero : timeoutFlag ≠ 0 := fun h => hwait (Or.inr (Or.inl h))
  have hone : timeoutFlag ≠ 1 := fun h => hwait (Or.inr (Or.inr h))
  simp [semChange, SEM_COUNT, SEM_FLAG, hminus, hzero, hone]

inductive AttachPoint where
  /-- Look for the segment. -/
  | probe
  /-- Map the segment that was found. -/
  | mapFound (shmemId : Int)
  /-- Look for the set of the segment that was found. -/
  | lookup (shmemId memory : Int)
  /-- Create the segment. -/
  | create
  /-- Map the new segment. -/
  | mapNew (shmemId : Int)
  /-- Create the set. -/
  | createSet (shmemId memory : Int)
  /-- Raise FLAG of the new set. -/
  | raiseFlag (shmemId memory semId : Int)
  /-- Return. -/
  | done (handle : Option StackT)
  /-- A failed assertion. -/
  | aborted
deriving DecidableEq

namespace AttachPoint

variable (timeoutFlag key size : Int)

def handle (shmemId memory semId : Int) : StackT where
  size := size
  memory := memory
  shmemId := shmemId
  semId := semId

def raiseFlagCode (shmemId memory semId : Int) : Prog (Option StackT) :=
  Program.call
    (Op.semop semId SEM_FLAG 1 (initFlags timeoutFlag))
    (fun _ => Program.ret (some (handle size shmemId memory semId)))

def createSetCode (shmemId memory : Int) : Prog (Option StackT) :=
  Program.call (Op.semget key 2 shmgetCreatExcl)
    (fun sem =>
      if sem.errno = Errno.eexist ∨ sem.ret ≤ 0 then Program.ret none
      else if ValidWait timeoutFlag then
        raiseFlagCode timeoutFlag size shmemId memory sem.ret
      else Program.ret (some (handle size shmemId memory sem.ret)))

def mapNewCode (shmemId : Int) : Prog (Option StackT) :=
  Program.call (Op.shmat shmemId)
    (fun memory => createSetCode timeoutFlag key size shmemId memory.ret)

def createCode : Prog (Option StackT) :=
  Program.call (Op.shmget key size shmgetCreatExcl)
    (fun shmem =>
      if 0 < shmem.ret then mapNewCode timeoutFlag key size shmem.ret
      else Program.halt Exit.abort)

def lookupCode (shmemId memory : Int) : Prog (Option StackT) :=
  Program.call (Op.semget key 2 shmgetExcl)
    (fun sem =>
      if sem.ret ≤ 0 then Program.ret none
      else Program.ret (some (handle size shmemId memory sem.ret)))

def mapFoundCode (shmemId : Int) : Prog (Option StackT) :=
  Program.call (Op.shmat shmemId)
    (fun memory => lookupCode key size shmemId memory.ret)

def probeCode : Prog (Option StackT) :=
  Program.call (Op.shmget key size shmgetExcl)
    (fun found =>
      if 0 < found.ret then mapFoundCode key size found.ret
      else if found.errno = Errno.einval then Program.ret none
      else createCode timeoutFlag key size)

def code : AttachPoint -> Prog (Option StackT)
  | probe => probeCode timeoutFlag key size
  | mapFound shmemId => mapFoundCode key size shmemId
  | lookup shmemId memory => lookupCode key size shmemId memory
  | create => createCode timeoutFlag key size
  | mapNew shmemId => mapNewCode timeoutFlag key size shmemId
  | createSet shmemId memory =>
      createSetCode timeoutFlag key size shmemId memory
  | raiseFlag shmemId memory semId =>
      raiseFlagCode timeoutFlag size shmemId memory semId
  | done handle => Program.ret handle
  | aborted => Program.halt Exit.abort

end AttachPoint

theorem attachStack_code_eq (timeoutFlag key size : Int) :
    attachStack timeoutFlag key size =
      AttachPoint.probe.code timeoutFlag key size := by
  have hraise : forall shmemId memory semId : Int,
      (semChange timeoutFlag semId SEM_FLAG 1 NOT_NEED >>= fun _ =>
        (Program.ret (some (AttachPoint.handle size shmemId memory semId)) :
          Prog (Option StackT))) =
        if ValidWait timeoutFlag then
          AttachPoint.raiseFlagCode timeoutFlag size shmemId memory semId
        else
          Program.ret (some (AttachPoint.handle size shmemId memory semId)) := by
    intro shmemId memory semId
    by_cases hwait : ValidWait timeoutFlag
    · rw [if_pos hwait, semChange_flag_init hwait]
      rfl
    · rw [if_neg hwait, semChange_flag_init_invalid hwait]
      rfl
  simp only [attachStack, assertThat, Program.ask, Program.pure_eq_ret,
    Program.call_bind, Program.ret_bind, Program.ite_bind, Program.halt_bind,
    AttachPoint.code, AttachPoint.probeCode, AttachPoint.mapFoundCode,
    AttachPoint.lookupCode, AttachPoint.createCode, AttachPoint.mapNewCode,
    AttachPoint.createSetCode, AttachPoint.handle]
  congr 1
  funext found
  by_cases hfound : 0 < found.ret
  · simp only [if_pos hfound]
  · simp only [if_neg hfound]
    by_cases heinval : found.errno = Errno.einval
    · simp only [if_pos heinval]
    · simp only [if_neg heinval]
      congr 1
      funext shmem
      by_cases hshm : 0 < shmem.ret
      · simp only [hshm, decide_true, if_true]
        congr 1
        funext memory
        congr 1
        funext sem
        by_cases hsem : sem.errno = Errno.eexist ∨ sem.ret ≤ 0
        · simp only [if_pos hsem]
        · simp only [if_neg hsem]
          have hpos : 0 < sem.ret := by
            lia
          simp only [hpos, decide_true, if_true]
          exact hraise shmem.ret memory.ret sem.ret
      · simp only [hshm, decide_false, if_false]
        rfl

end Stack
end UnixPrograms
