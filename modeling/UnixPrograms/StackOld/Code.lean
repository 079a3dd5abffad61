import UnixPrograms.Stack.Points

/-!
# The stack over POSIX semaphores

`stack_old.c`, the implementation that `stack.c` replaced: the same interface
over two named semaphores, `count` and `flag`.  `push` and `pop` find out from
`errno` whether `sem_trywait` has failed; no other call resets it.  The
global `timeout_flag` of the calling process is a parameter, a `NULL` stack is
`none`, and the text that the functions print is left out.
-/

namespace UnixPrograms
namespace StackOld

open Foundation
open Ipc (Ptr Pid)
open Stack (Request Outcome)

inductive Sem where
  | count
  | flag
deriving DecidableEq

def EAGAIN : Nat := 11
def EOVERFLOW : Nat := 75
def SEM_VALUE_MAX : Nat := 2147483647

inductive Op where
  | semWait (sem : Sem)
  | semTrywait (sem : Sem)
  | semPost (sem : Sem)
  | semGetvalue (sem : Sem)
  | errno
  | store (index : Int) (val : Ptr)
  | load (index : Int)
deriving DecidableEq

structure Reading where
  check : Int
  val : Int

abbrev Op.Res : Op -> Type
  | Op.semWait _ => Int
  | Op.semTrywait _ => Int
  | Op.semPost _ => Int
  | Op.semGetvalue _ => Reading
  | Op.errno => Nat
  | Op.store _ _ => Unit
  | Op.load _ => Ptr

inductive Exit where
  | abort

abbrev Prog (alpha : Type) := Program Op Op.Res Exit alpha

/-!
## The source
-/

/-- The part of `struct stack_t` that differs between the processes; the
memory and the semaphores are the same for all of them. -/
structure StackT where
  size : Int

def getSize (stack : Option StackT) : Int :=
  match stack with
  | none => -1
  | some stack => stack.size

def getCount (stack : Option StackT) : Prog Int :=
  match stack with
  | none => return -1
  | some _ => do
      let reading <- Program.ask (Op.semGetvalue Sem.count)
      if 0 ≤ reading.check then return reading.val
      else Program.halt Exit.abort

/-- How `push` and `pop` take `flag`; the result is `false` where they return
-1.  The branch for the timed wait tests for -1 a second time, so that any
other value goes on without having taken it. -/
def takeFlag (timeoutFlag : Int) : Prog Bool :=
  if timeoutFlag = 0 then do
    let _ <- Program.ask (Op.semWait Sem.flag)
    return true
  else if timeoutFlag = -1 then do
    let _ <- Program.ask (Op.semTrywait Sem.flag)
    let errno <- Program.ask Op.errno
    if errno = EAGAIN then return false else return true
  else
    return true

def push (timeoutFlag : Int) (stack : Option StackT) (val : Ptr) : Prog Int :=
  match stack with
  | none => return -1
  | some s => do
      let taken <- takeFlag timeoutFlag
      if taken = true then
        let count <- getCount (some s)
        if getSize (some s) ≤ count then
          let _ <- Program.ask (Op.semPost Sem.flag)
          return -1
        else
          let index <- getCount (some s)
          Program.ask (Op.store index val)
          let _ <- Program.ask (Op.semPost Sem.count)
          let _ <- Program.ask (Op.semPost Sem.flag)
          return 0
      else
        return -1

/-- The returned integer, and what was stored through `val`. -/
def pop (timeoutFlag : Int) (stack : Option StackT) :
    Prog (Int × Option Ptr) :=
  match stack with
  | none => return (-1, none)
  | some s => do
      let taken <- takeFlag timeoutFlag
      if taken = true then
        let count <- getCount (some s)
        if count = 0 then
          let _ <- Program.ask (Op.semPost Sem.flag)
          return (-1, none)
        else
          let _ <- Program.ask (Op.semWait Sem.count)
          let index <- getCount (some s)
          let val <- Program.ask (Op.load index)
          let _ <- Program.ask (Op.semPost Sem.flag)
          return (0, some val)
      else
        return (-1, none)

def requestCode (timeoutFlag : Int) (stack : StackT) : Request -> Prog Outcome
  | Request.push val => do
      let check <- push timeoutFlag (some stack) val
      return { ret := check, out := none }
  | Request.pop => do
      let result <- pop timeoutFlag (some stack)
      return { ret := result.1, out := result.2 }

/-!
## Semaphores
-/

structure Kernel where
  val : Sem -> Nat
  memory : Int -> Ptr
  errno : Pid -> Nat

namespace Kernel

def setErrno (k : Kernel) (p : Pid) (errno : Nat) : Kernel :=
  { k with errno := Function.update k.errno p errno }

def down (k : Kernel) (sem : Sem) : Kernel :=
  { k with val := Function.update k.val sem (k.val sem - 1) }

def up (k : Kernel) (sem : Sem) : Kernel :=
  { k with val := Function.update k.val sem (k.val sem + 1) }

/-- One operation on a segment with so many slots.  `sem_wait` blocks while the
semaphore is 0, and no signal handler interrupts it; a call that succeeds
leaves `errno` as it was; an access outside the segment has no result. -/
def exec (slots : Nat) (p : Pid) :
    (op : Op) -> Kernel -> Option (op.Res × Kernel)
  | Op.semWait sem, k => if k.val sem = 0 then none else some (0, k.down sem)
  | Op.semTrywait sem, k =>
      if k.val sem = 0 then some (-1, k.setErrno p EAGAIN)
      else some (0, k.down sem)
  | Op.semPost sem, k =>
      if k.val sem = SEM_VALUE_MAX then some (-1, k.setErrno p EOVERFLOW)
      else some (0, k.up sem)
  | Op.semGetvalue sem, k =>
      some
        ({ check := 0
           val := k.val sem }, k)
  | Op.errno, k => some (k.errno p, k)
  | Op.store index val, k =>
      if 0 ≤ index ∧ index < slots then
        some ((), { k with memory := Function.update k.memory index val })
      else none
  | Op.load index, k =>
      if 0 ≤ index ∧ index < slots then some (k.memory index, k) else none

end Kernel

/-!
## Program points
-/

inductive Point where
  | wait
  | tryWait
  | seeErrno (taken : Bool)
  | check
  | failRelease
  | takeCount
  | slot
  | access (index : Int)
  | commit
  | release (out : Option Ptr)
  | done (outcome : Outcome) (locked : Bool)
deriving DecidableEq

namespace Point

def releaseCode (outcome : Outcome) : Prog Outcome :=
  Program.call (Op.semPost Sem.flag) (fun _ => Program.ret outcome)

def failed : Outcome where
  ret := -1
  out := none

def succeeded (out : Option Ptr) : Outcome where
  ret := 0
  out := out

def commitCode : Prog Outcome :=
  Program.call (Op.semPost Sem.count) (fun _ => releaseCode (succeeded none))

def accessCode (index : Int) : Request -> Prog Outcome
  | Request.push val =>
      Program.call (Op.store index val) (fun _ => commitCode)
  | Request.pop =>
      Program.call (Op.load index)
        (fun val => releaseCode (succeeded (some val)))

def slotCode (request : Request) : Prog Outcome :=
  Program.call (Op.semGetvalue Sem.count)
    (fun reading =>
      if 0 ≤ reading.check then accessCode reading.val request
      else Program.halt Exit.abort)

def takeCountCode (request : Request) : Prog Outcome :=
  Program.call (Op.semWait Sem.count) (fun _ => slotCode request)

def goOnCode : Request -> Prog Outcome
  | Request.push val => slotCode (Request.push val)
  | Request.pop => takeCountCode Request.pop

def checkCode (size : Int) (request : Request) : Prog Outcome :=
  Program.call (Op.semGetvalue Sem.count)
    (fun reading =>
      if 0 ≤ reading.check then
        if request.refuses size reading.val = true then releaseCode failed
        else goOnCode request
      else Program.halt Exit.abort)

def seeErrnoCode (size : Int) (request : Request) : Prog Outcome :=
  Program.call Op.errno
    (fun errno =>
      if errno = EAGAIN then Program.ret failed else checkCode size request)

def code (size : Int) (request : Request) : Point -> Prog Outcome
  | wait =>
      Program.call (Op.semWait Sem.flag) (fun _ => checkCode size request)
  | tryWait =>
      Program.call (Op.semTrywait Sem.flag)
        (fun _ => seeErrnoCode size request)
  | seeErrno _ => seeErrnoCode size request
  | check => checkCode size request
  | failRelease => releaseCode failed
  | takeCount => takeCountCode request
  | slot => slotCode request
  | access index => accessCode index request
  | commit => commitCode
  | release out => releaseCode (succeeded out)
  | done outcome _ => Program.ret outcome

def locked : Point -> Bool
  | wait => false
  | tryWait => false
  | seeErrno taken => taken
  | done _ locked => locked
  | _ => true

def inside : Point -> Bool
  | wait => false
  | tryWait => false
  | seeErrno taken => taken
  | done _ _ => false
  | _ => true

end Point

def Locks (timeoutFlag : Int) : Prop :=
  timeoutFlag = 0 ∨ timeoutFlag = -1

instance (timeoutFlag : Int) : Decidable (Locks timeoutFlag) :=
  inferInstanceAs (Decidable (_ ∨ _))

def startPoint (timeoutFlag : Int) : Point :=
  if timeoutFlag = 0 then Point.wait
  else if timeoutFlag = -1 then Point.tryWait
  else Point.check

theorem requestCode_eq (timeoutFlag : Int) (stack : StackT)
    (request : Request) :
    requestCode timeoutFlag stack request =
      (startPoint timeoutFlag).code stack.size request := by
  unfold startPoint
  by_cases hzero : timeoutFlag = 0
  · rw [if_pos hzero]
    cases request <;>
      simp [requestCode, push, pop, takeFlag, getCount, getSize, hzero,
        Program.ask, Program.ite_bind, Point.code, Point.checkCode,
        Point.goOnCode, Point.takeCountCode, Point.slotCode, Point.accessCode,
        Point.commitCode, Point.releaseCode, Point.failed, Point.succeeded,
        Request.refuses]
  · rw [if_neg hzero]
    by_cases hminus : timeoutFlag = -1
    · rw [if_pos hminus]
      cases request <;>
        simp [requestCode, push, pop, takeFlag, getCount, getSize, hminus,
          Program.ask, Program.ite_bind, Point.code, Point.checkCode,
          Point.seeErrnoCode, Point.goOnCode, Point.takeCountCode,
          Point.slotCode, Point.accessCode, Point.commitCode,
          Point.releaseCode, Point.failed, Point.succeeded, Request.refuses]
    · rw [if_neg hminus]
      cases request <;>
        simp [requestCode, push, pop, takeFlag, getCount, getSize, hzero,
          hminus, Program.ask, Program.ite_bind, Point.code, Point.checkCode,
          Point.goOnCode, Point.takeCountCode, Point.slotCode,
          Point.accessCode, Point.commitCode, Point.releaseCode, Point.failed,
          Point.succeeded, Request.refuses]

end StackOld
end UnixPrograms
