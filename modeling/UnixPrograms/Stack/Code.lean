import UnixPrograms.Ipc.Kernel

/-!
# The shared memory stack

`stack.c` as programs over the kernel calls it makes.  The global
`timeout_flag` of the calling process is a parameter of the functions that
read it, a `NULL` stack is `none`, and the text that the functions print is
left out.
-/

namespace UnixPrograms
namespace Stack

open Foundation
open Ipc

/-- How a process can end inside one of the functions: `exit(code)`, or a
failed assertion. -/
inductive Exit where
  | exit (code : Int)
  | abort
deriving DecidableEq, Repr

abbrev Prog (alpha : Type) := Program Op Op.Res Exit alpha

def SEM_COUNT : Nat := 0
def SEM_FLAG : Nat := 1
def NEED : Int := 1
def NOT_NEED : Int := 0

structure StackT where
  size : Int
  memory : Int
  shmemId : Int
  semId : Int
deriving DecidableEq

/-- `assert(condition)`. -/
def assertThat (condition : Bool) : Prog Unit :=
  if condition then pure () else Program.halt Exit.abort

/-- `semop` or `semtimedop` on one semaphore; its result is the returned
integer. -/
def semCall (semId : Int) (semNum : Nat) (val : Int) (flags : SemFlags) :
    Prog Int := do
  let answer <- Program.ask (Op.semop semId semNum val flags)
  return answer.ret

def semChange (timeoutFlag : Int) (semId : Int) (semNum : Nat)
    (val undo : Int) : Prog Int :=
  if semNum = SEM_COUNT then
    semCall semId semNum val { nowait := false, undo := false, timed := false }
  else if semNum = SEM_FLAG then
    if timeoutFlag = -1 then
      if undo = NEED then
        semCall semId semNum val { nowait := true, undo := true, timed := false }
      else
        semCall semId semNum val
          { nowait := true, undo := false, timed := false }
    else if timeoutFlag = 0 then
      if undo = NEED then
        semCall semId semNum val
          { nowait := false, undo := true, timed := false }
      else
        semCall semId semNum val
          { nowait := false, undo := false, timed := false }
    else if timeoutFlag = 1 then
      if undo = NEED then
        semCall semId semNum val { nowait := false, undo := true, timed := true }
      else
        semCall semId semNum val
          { nowait := false, undo := false, timed := true }
    else
      return -1
  else
    return -1

def shmgetExcl : GetFlags := { creat := false, excl := true }
def shmgetCreatExcl : GetFlags := { creat := true, excl := true }

/-- The result is the new handle, or `none` for `NULL`.  `shmat` reports a
failure as `(void*)-1`, which is never `NULL`. -/
def attachStack (timeoutFlag : Int) (key size : Int) : Prog (Option StackT) := do
  let probe <- Program.ask (Op.shmget key size shmgetExcl)
  let myErrno := probe.errno
  if 0 < probe.ret then
    let memory <- Program.ask (Op.shmat probe.ret)
    let sem <- Program.ask (Op.semget key 2 shmgetExcl)
    if sem.ret ≤ 0 then
      return none
    else
      return some
        { size := size, memory := memory.ret, shmemId := probe.ret,
          semId := sem.ret }
  else if myErrno = Errno.einval then
    return none
  else
    let shmem <- Program.ask (Op.shmget key size shmgetCreatExcl)
    assertThat (0 < shmem.ret)
    let memory <- Program.ask (Op.shmat shmem.ret)
    let sem <- Program.ask (Op.semget key 2 shmgetCreatExcl)
    if sem.errno = Errno.eexist ∨ sem.ret ≤ 0 then
      return none
    else
      assertThat (0 < sem.ret)
      let _ <- semChange timeoutFlag sem.ret SEM_FLAG 1 NOT_NEED
      return some
        { size := size, memory := memory.ret, shmemId := shmem.ret,
          semId := sem.ret }

/-- The result is the returned integer; on a handle the function ends without
returning one. -/
def detachStack (stack : Option StackT) : Prog (Option Int) :=
  match stack with
  | none => return some (-1)
  | some stack => do
      let check <- Program.ask (Op.shmdt stack.memory)
      assertThat (0 ≤ check.ret)
      return none

def markDestruct (stack : Option StackT) : Prog Int :=
  match stack with
  | none => return -1
  | some stack => do
      let check <- Program.ask (Op.shmRmid stack.shmemId)
      assertThat (check.ret = 0)
      let check <- Program.ask (Op.semRmid stack.semId)
      assertThat (check.ret = 0)
      return 0

def getSize (stack : Option StackT) : Int :=
  match stack with
  | none => -1
  | some stack => stack.size

def getCount (stack : Option StackT) : Prog Int :=
  match stack with
  | none => return -1
  | some stack => do
      let val <- Program.ask (Op.getval stack.semId SEM_COUNT)
      if val.errno = Errno.eidrm then
        Program.halt (Exit.exit 1)
      else
        return val.ret

def push (timeoutFlag : Int) (stack : Option StackT) (val : Ptr) : Prog Int :=
  match stack with
  | none => return -1
  | some s => do
      let check <- semChange timeoutFlag s.semId SEM_FLAG (-1) NEED
      if check = 0 then
        let count <- getCount stack
        if getSize stack ≤ count then
          let _ <- semChange timeoutFlag s.semId SEM_FLAG 1 NEED
          return -1
        else
          let index <- getCount stack
          Program.ask (Op.store s.memory index val)
          let _ <- semChange timeoutFlag s.semId SEM_COUNT 1 NOT_NEED
          let _ <- semChange timeoutFlag s.semId SEM_FLAG 1 NEED
          return 0
      else
        return check

/-- The returned integer, and what was stored through `val`. -/
def pop (timeoutFlag : Int) (stack : Option StackT) :
    Prog (Int × Option Ptr) :=
  match stack with
  | none => return (-1, none)
  | some s => do
      let check <- semChange timeoutFlag s.semId SEM_FLAG (-1) NEED
      if check = 0 then
        let count <- getCount stack
        if count = 0 then
          let _ <- semChange timeoutFlag s.semId SEM_FLAG 1 NEED
          return (-1, none)
        else
          let index <- getCount stack
          let val <- Program.ask (Op.load s.memory (index - 1))
          let _ <- semChange timeoutFlag s.semId SEM_COUNT (-1) NOT_NEED
          let _ <- semChange timeoutFlag s.semId SEM_FLAG 1 NEED
          return (0, some val)
      else
        return (check, none)

/-- `clear_key` attaches and marks for destruction; it does not detach. -/
def clearKey (timeoutFlag : Int) (key size : Int) : Prog Unit := do
  let stack <- attachStack timeoutFlag key size
  assertThat stack.isSome
  let _ <- markDestruct stack
  return ()

end Stack
end UnixPrograms
