import UnixPrograms.Stack.Code

/-!
# Program points of the stack operations

`push` and `pop` pass through the same sequence of kernel calls: take FLAG,
read COUNT for the test, read it again for the index, access the slot, change
COUNT, give FLAG back.  This module names the code that remains at each of
these points and proves that the two functions consist of exactly these
pieces, so that later modules follow a call by its point.
-/

namespace UnixPrograms
namespace Stack

open Foundation
open Ipc

inductive Request where
  | push (val : Ptr)
  | pop
deriving DecidableEq

/-- What a call hands back: the returned integer and the stored `*val`. -/
structure Outcome where
  ret : Int
  out : Option Ptr
deriving DecidableEq

def Request.code (timeoutFlag : Int) (stack : StackT) : Request -> Prog Outcome
  | Request.push val => do
      let check <- Stack.push timeoutFlag (some stack) val
      return { ret := check, out := none }
  | Request.pop => do
      let result <- Stack.pop timeoutFlag (some stack)
      return { ret := result.1, out := result.2 }

/-- The values `set_wait` documents. -/
def ValidWait (timeoutFlag : Int) : Prop :=
  timeoutFlag = -1 ∨ timeoutFlag = 0 ∨ timeoutFlag = 1

instance (timeoutFlag : Int) : Decidable (ValidWait timeoutFlag) :=
  inferInstanceAs (Decidable (_ ∨ _))

def flagFlags (timeoutFlag : Int) : SemFlags where
  nowait := decide (timeoutFlag = -1)
  undo := true
  timed := decide (timeoutFlag = 1)

def countFlags : SemFlags where
  nowait := false
  undo := false
  timed := false

theorem semChange_count (timeoutFlag semId val undo : Int) :
    semChange timeoutFlag semId SEM_COUNT val undo =
      semCall semId SEM_COUNT val countFlags := by
  simp [semChange, countFlags]

theorem semChange_flag {timeoutFlag : Int} (hwait : ValidWait timeoutFlag)
    (semId val : Int) :
    semChange timeoutFlag semId SEM_FLAG val NEED =
      semCall semId SEM_FLAG val (flagFlags timeoutFlag) := by
  rcases hwait with h | h | h <;>
    simp [semChange, flagFlags, SEM_COUNT, SEM_FLAG, h]

theorem semChange_flag_invalid {timeoutFlag : Int}
    (hwait : ¬ ValidWait timeoutFlag) (semId val : Int) :
    semChange timeoutFlag semId SEM_FLAG val NEED = Program.ret (-1) := by
  have hminus : timeoutFlag ≠ -1 := fun h => hwait (Or.inl h)
  have hzero : timeoutFlag ≠ 0 := fun h => hwait (Or.inr (Or.inl h))
  have hone : timeoutFlag ≠ 1 := fun h => hwait (Or.inr (Or.inr h))
  simp [semChange, SEM_COUNT, SEM_FLAG, hminus, hzero, hone]

/-!
## The remaining code at each point
-/

def Request.delta : Request -> Int
  | Request.push _ => 1
  | Request.pop => -1

/-- The test on the first reading of COUNT that makes a call give up. -/
def Request.refuses (size : Int) : Request -> Int -> Bool
  | Request.push _, count => decide (size ≤ count)
  | Request.pop, count => decide (count = 0)

/-- A place in the code of `push` or `pop`, named by what it does next. -/
inductive Point where
  /-- Take FLAG. -/
  | acquire
  /-- Read COUNT for the test. -/
  | check
  /-- Give FLAG back after a failed test. -/
  | failRelease
  /-- Read COUNT for the index. -/
  | slot
  /-- Write or read the slot; the second reading of COUNT was `index`. -/
  | access (index : Int)
  /-- Change COUNT. -/
  | commit (out : Option Ptr)
  /-- Give FLAG back after the change. -/
  | release (out : Option Ptr)
  /-- Return to the caller. -/
  | done (outcome : Outcome)
  /-- The process ended inside `get_count`. -/
  | ended (reason : Exit)

namespace Point

variable (timeoutFlag : Int) (stack : StackT) (request : Request)

def releaseCode (outcome : Outcome) : Prog Outcome :=
  Program.call
    (Op.semop stack.semId SEM_FLAG 1 (flagFlags timeoutFlag))
    (fun _ => Program.ret outcome)

def commitCode (out : Option Ptr) : Prog Outcome :=
  Program.call
    (Op.semop stack.semId SEM_COUNT request.delta countFlags)
    (fun _ => releaseCode timeoutFlag stack { ret := 0, out := out })

def accessCode (index : Int) : Prog Outcome :=
  match request with
  | Request.push val =>
      Program.call (Op.store stack.memory index val)
        (fun _ => commitCode timeoutFlag stack request none)
  | Request.pop =>
      Program.call (Op.load stack.memory (index - 1))
        (fun val => commitCode timeoutFlag stack request (some val))

def slotCode : Prog Outcome :=
  Program.call (Op.getval stack.semId SEM_COUNT)
    (fun answer =>
      if answer.errno = Errno.eidrm then Program.halt (Exit.exit 1)
      else accessCode timeoutFlag stack request answer.ret)

def checkCode : Prog Outcome :=
  Program.call (Op.getval stack.semId SEM_COUNT)
    (fun answer =>
      if answer.errno = Errno.eidrm then Program.halt (Exit.exit 1)
      else if request.refuses stack.size answer.ret = true then
        releaseCode timeoutFlag stack { ret := -1, out := none }
      else slotCode timeoutFlag stack request)

def acquireCode : Prog Outcome :=
  Program.call
    (Op.semop stack.semId SEM_FLAG (-1) (flagFlags timeoutFlag))
    (fun answer =>
      if answer.ret = 0 then checkCode timeoutFlag stack request
      else Program.ret { ret := answer.ret, out := none })

def code : Point -> Prog Outcome
  | acquire => acquireCode timeoutFlag stack request
  | check => checkCode timeoutFlag stack request
  | failRelease => releaseCode timeoutFlag stack { ret := -1, out := none }
  | slot => slotCode timeoutFlag stack request
  | access index => accessCode timeoutFlag stack request index
  | commit out => commitCode timeoutFlag stack request out
  | release out => releaseCode timeoutFlag stack { ret := 0, out := out }
  | done outcome => Program.ret outcome
  | ended reason => Program.halt reason

def inside : Point -> Bool
  | acquire => false
  | done _ => false
  | _ => true

end Point

/-- Where a call begins: an undocumented wait mode fails at once. -/
def startPoint (timeoutFlag : Int) : Point :=
  if ValidWait timeoutFlag then Point.acquire
  else Point.done { ret := -1, out := none }

theorem request_code_eq (timeoutFlag : Int) (stack : StackT)
    (request : Request) :
    request.code timeoutFlag stack =
      (startPoint timeoutFlag).code timeoutFlag stack request := by
  by_cases hwait : ValidWait timeoutFlag
  · rw [startPoint, if_pos hwait]
    cases request with
    | push val =>
        simp [Request.code, Stack.push, semChange_flag hwait, semChange_count,
          semCall, getCount, getSize, Program.ask, Program.ite_bind, Point.code,
          Point.acquireCode, Point.checkCode, Point.slotCode, Point.accessCode,
          Point.commitCode, Point.releaseCode, Request.refuses, Request.delta]
    | pop =>
        simp [Request.code, Stack.pop, semChange_flag hwait, semChange_count,
          semCall, getCount, Program.ask, Program.ite_bind, Point.code,
          Point.acquireCode, Point.checkCode, Point.slotCode, Point.accessCode,
          Point.commitCode, Point.releaseCode, Request.refuses, Request.delta]
  · rw [startPoint, if_neg hwait]
    cases request <;>
      simp [Request.code, Stack.push, Stack.pop, semChange_flag_invalid hwait,
        Point.code]

end Stack
end UnixPrograms
