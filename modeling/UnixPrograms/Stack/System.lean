import UnixPrograms.Stack.Points
import UnixPrograms.Foundation.Callers
import UnixPrograms.Foundation.Transition

/-!
# Processes sharing one stack

Any number of processes are attached to one segment and one semaphore set,
each with a handle of its own size.  A label of the transition system names
the process that acts, so a list of labels is one interleaving of the atomic
steps of their calls.
-/

namespace UnixPrograms
namespace Stack

open Foundation
open Ipc

inductive Call where
  | request (request : Request)
  | markDestruct
deriving DecidableEq

def Call.code (timeoutFlag : Int) (stack : StackT) : Call -> Prog Outcome
  | Call.request asked => asked.code timeoutFlag stack
  | Call.markDestruct => do
      let check <- Stack.markDestruct (some stack)
      return { ret := check, out := none }

structure Config where
  size : Pid -> Int
  shmemId : Int
  semId : Int

def Config.handle (cfg : Config) (p : Pid) : StackT where
  size := cfg.size p
  memory := cfg.shmemId
  shmemId := cfg.shmemId
  semId := cfg.semId

/-- The mode of a call is the `timeout_flag` of its process. -/
abbrev Status := CallStatus Int Call (Prog Outcome)

namespace Status

export CallStatus (idle running dead)

end Status

abbrev State := CallState Pid Kernel Int Call Outcome (Prog Outcome)

/-- An atomic step comes with the error that the kernel reports should the
object be gone. -/
abbrev Label := CallLabel Pid Int Call Removed

namespace Label

export CallLabel (begin atom finish kill)

end Label

/-- FLAG is held after a successful -1 and no longer after a successful +1. -/
def lockedAfter (semId : Int) (locked : Bool) : (op : Op) -> op.Res -> Bool
  | Op.semop id semNum semOp _, answer =>
      if id = semId ∧ semNum = SEM_FLAG ∧ answer.ret = 0 then
        decide (semOp < 0)
      else locked
  | _, _ => locked

def Attached (cfg : Config) (kernel : Kernel) (p : Pid) : Bool :=
  match kernel.segs cfg.shmemId with
  | none => false
  | some seg => seg.attached.contains p

/-- When a process ends, the kernel applies its undo adjustments. -/
def Config.callers (cfg : Config) :
    Callers Pid Kernel Int Call Outcome Exit Removed Op.Res where
  code := fun p timeoutFlag call => call.code timeoutFlag (cfg.handle p)
  enter := fun p _ kernel =>
    if Attached cfg kernel p = true then some kernel else none
  exec := fun removed p op kernel => kernel.exec removed p op
  lockedAfter := lockedAfter cfg.semId
  exit := fun p kernel => kernel.exit p

def step (cfg : Config) : State -> Label -> Option State :=
  cfg.callers.step

/-- A new stack that nobody has used yet: COUNT is 0, FLAG is 1. -/
structure Fresh (cfg : Config) (s : State) : Prop where
  idle : forall p, s.status p = Status.idle
  returned : forall p, s.returned p = []
  errno : forall p, s.kernel.errno p ≠ Errno.eidrm
  segment : exists seg, s.kernel.segs cfg.shmemId = some seg ∧
    seg.marked = false
  set : exists set, s.kernel.sets cfg.semId = some set ∧
    set.val SEM_COUNT = 0 ∧ set.val SEM_FLAG = 1 ∧
    forall p semNum, set.adj p semNum = 0

/-!
## The point machine

The same system with every process described by its program point instead of
its remaining code.  All invariants are proved about this machine, and the
simulation at the end of the module carries them to the code.
-/

inductive DestructPoint where
  | removeSegment
  | removeSet
  | done
  | aborted
deriving DecidableEq

namespace DestructPoint

def removeSetCode (stack : StackT) : Prog Outcome :=
  Program.call (Op.semRmid stack.semId)
    (fun answer =>
      if answer.ret = 0 then Program.ret { ret := 0, out := none }
      else Program.halt Exit.abort)

def code (stack : StackT) : DestructPoint -> Prog Outcome
  | removeSegment =>
      Program.call (Op.shmRmid stack.shmemId)
        (fun answer =>
          if answer.ret = 0 then removeSetCode stack
          else Program.halt Exit.abort)
  | removeSet => removeSetCode stack
  | done => Program.ret { ret := 0, out := none }
  | aborted => Program.halt Exit.abort

end DestructPoint

theorem markDestruct_code_eq (timeoutFlag : Int) (stack : StackT) :
    Call.markDestruct.code timeoutFlag stack =
      DestructPoint.removeSegment.code stack := by
  simp [Call.code, Stack.markDestruct, assertThat, Program.ask, Program.ite_bind,
    DestructPoint.code, DestructPoint.removeSetCode]

/-- A process as the point machine sees it. -/
inductive View where
  | idle
  | working (timeoutFlag : Int) (request : Request) (point : Point)
      (locked : Bool)
  | destroying (timeoutFlag : Int) (point : DestructPoint)
  | dead (call : Option Call)

def View.status (stack : StackT) : View -> Status
  | View.idle => Status.idle
  | View.working timeoutFlag request point locked =>
      Status.running timeoutFlag (Call.request request)
        (point.code timeoutFlag stack request) locked
  | View.destroying timeoutFlag point =>
      Status.running timeoutFlag Call.markDestruct (point.code stack) false
  | View.dead call => Status.dead call

inductive Advance (removed : Removed) (p : Pid) (timeoutFlag : Int)
    (stack : StackT) :
    Request -> Point -> Bool -> Kernel -> Point -> Bool -> Kernel -> Prop where
  | acquire {request : Request} {locked : Bool} {k k' : Kernel}
      {answer : Answer} :
      k.semop removed p stack.semId SEM_FLAG (-1) (flagFlags timeoutFlag) =
        some (answer, k') ->
      Advance removed p timeoutFlag stack request Point.acquire locked k
        (if answer.ret = 0 then Point.check
          else Point.done { ret := answer.ret, out := none })
        (if answer.ret = 0 then true else locked) k'
  | check {request : Request} {locked : Bool} {k k' : Kernel}
      {answer : Answer} :
      k.getval removed p stack.semId SEM_COUNT = (answer, k') ->
      Advance removed p timeoutFlag stack request Point.check locked k
        (if answer.errno = Errno.eidrm then Point.ended (Exit.exit 1)
          else if request.refuses stack.size answer.ret = true then
            Point.failRelease
          else Point.slot)
        locked k'
  | failRelease {request : Request} {locked : Bool} {k k' : Kernel}
      {answer : Answer} :
      k.semop removed p stack.semId SEM_FLAG 1 (flagFlags timeoutFlag) =
        some (answer, k') ->
      Advance removed p timeoutFlag stack request Point.failRelease locked k
        (Point.done { ret := -1, out := none })
        (if answer.ret = 0 then false else locked) k'
  | slot {request : Request} {locked : Bool} {k k' : Kernel}
      {answer : Answer} :
      k.getval removed p stack.semId SEM_COUNT = (answer, k') ->
      Advance removed p timeoutFlag stack request Point.slot locked k
        (if answer.errno = Errno.eidrm then Point.ended (Exit.exit 1)
          else Point.access answer.ret)
        locked k'
  | write {val : Ptr} {index : Int} {locked : Bool} {k : Kernel}
      {seg : Segment} :
      k.segs stack.memory = some seg ->
      Advance removed p timeoutFlag stack (Request.push val)
        (Point.access index) locked k (Point.commit none) locked
        (k.setSeg stack.memory
          (some { seg with memory := Function.update seg.memory index val }))
  | read {index : Int} {locked : Bool} {k : Kernel} {seg : Segment} :
      k.segs stack.memory = some seg ->
      Advance removed p timeoutFlag stack Request.pop
        (Point.access index) locked k
        (Point.commit (some (seg.memory (index - 1)))) locked k
  | commit {request : Request} {out : Option Ptr} {locked : Bool}
      {k k' : Kernel} {answer : Answer} :
      k.semop removed p stack.semId SEM_COUNT request.delta countFlags =
        some (answer, k') ->
      Advance removed p timeoutFlag stack request (Point.commit out) locked k
        (Point.release out) locked k'
  | release {request : Request} {out : Option Ptr} {locked : Bool}
      {k k' : Kernel} {answer : Answer} :
      k.semop removed p stack.semId SEM_FLAG 1 (flagFlags timeoutFlag) =
        some (answer, k') ->
      Advance removed p timeoutFlag stack request (Point.release out) locked k
        (Point.done { ret := 0, out := out })
        (if answer.ret = 0 then false else locked) k'

inductive Dismantle (removed : Removed) (p : Pid) (stack : StackT) :
    DestructPoint -> Kernel -> DestructPoint -> Kernel -> Prop where
  | segment {k k' : Kernel} {answer : Answer} :
      k.shmRmid removed p stack.shmemId = (answer, k') ->
      Dismantle removed p stack DestructPoint.removeSegment k
        (if answer.ret = 0 then DestructPoint.removeSet
          else DestructPoint.aborted) k'
  | set {k k' : Kernel} {answer : Answer} :
      k.semRmid removed p stack.semId = (answer, k') ->
      Dismantle removed p stack DestructPoint.removeSet k
        (if answer.ret = 0 then DestructPoint.done
          else DestructPoint.aborted) k'

/-- The system with views in place of remaining code. -/
structure Machine where
  kernel : Kernel
  view : Pid -> View
  returned : Pid -> List (Call × Outcome)

namespace Machine

def toState (cfg : Config) (m : Machine) : State where
  kernel := m.kernel
  status := fun p => (m.view p).status (cfg.handle p)
  returned := m.returned

def setView (m : Machine) (p : Pid) (view : View) : Machine :=
  { m with view := Function.update m.view p view }

theorem setView_view_self (m : Machine) (p : Pid) (view : View) :
    (m.setView p view).view p = view := by
  simp [setView]

theorem setView_view_of_ne (m : Machine) {p q : Pid} (view : View)
    (h : q ≠ p) : (m.setView p view).view q = m.view q := by
  simp [setView, h]

theorem toState_setView (cfg : Config) (m : Machine) (p : Pid) (view : View) :
    (m.setView p view).toState cfg =
      (m.toState cfg).setStatus p (view.status (cfg.handle p)) := by
  unfold toState CallState.setStatus setView
  congr 1
  funext q
  by_cases hq : q = p
  · subst hq
    simp
  · simp [hq]

end Machine

inductive PointStep (cfg : Config) : Machine -> Label -> Machine -> Prop where
  | beginRequest {m : Machine} {p : Pid} {timeoutFlag : Int}
      {request : Request} :
      m.view p = View.idle ->
      Attached cfg m.kernel p = true ->
      PointStep cfg m (Label.begin p timeoutFlag (Call.request request))
        (m.setView p
          (View.working timeoutFlag request (startPoint timeoutFlag) false))
  | beginDestruct {m : Machine} {p : Pid} {timeoutFlag : Int} :
      m.view p = View.idle ->
      Attached cfg m.kernel p = true ->
      PointStep cfg m (Label.begin p timeoutFlag Call.markDestruct)
        (m.setView p
          (View.destroying timeoutFlag DestructPoint.removeSegment))
  | advance {m : Machine} {p : Pid} {removed : Removed} {timeoutFlag : Int}
      {request : Request} {point point' : Point} {locked locked' : Bool}
      {kernel : Kernel} :
      m.view p = View.working timeoutFlag request point locked ->
      Advance removed p timeoutFlag (cfg.handle p) request point locked
        m.kernel point' locked' kernel ->
      PointStep cfg m (Label.atom p removed)
        { m.setView p (View.working timeoutFlag request point' locked') with
          kernel := kernel }
  | dismantle {m : Machine} {p : Pid} {removed : Removed} {timeoutFlag : Int}
      {point point' : DestructPoint} {kernel : Kernel} :
      m.view p = View.destroying timeoutFlag point ->
      Dismantle removed p (cfg.handle p) point m.kernel point' kernel ->
      PointStep cfg m (Label.atom p removed)
        { m.setView p (View.destroying timeoutFlag point') with
          kernel := kernel }
  | die {m : Machine} {p : Pid} {l : Label} {call : Option Call} :
      (l = Label.kill p ∨ exists removed, l = Label.atom p removed) ->
      (m.view p = View.idle ∧ call = none ∨
        (exists timeoutFlag request point locked,
          m.view p = View.working timeoutFlag request point locked ∧
            call = some (Call.request request)) ∨
        exists timeoutFlag point,
          m.view p = View.destroying timeoutFlag point ∧
            call = some Call.markDestruct) ->
      PointStep cfg m l
        { m.setView p (View.dead call) with kernel := m.kernel.exit p }
  | finishRequest {m : Machine} {p : Pid} {timeoutFlag : Int}
      {request : Request} {outcome : Outcome} {locked : Bool} :
      m.view p =
        View.working timeoutFlag request (Point.done outcome) locked ->
      PointStep cfg m (Label.finish p)
        { m.setView p View.idle with
          returned :=
            Function.update m.returned p
              (m.returned p ++ [(Call.request request, outcome)]) }
  | finishDestruct {m : Machine} {p : Pid} {timeoutFlag : Int} :
      m.view p = View.destroying timeoutFlag DestructPoint.done ->
      PointStep cfg m (Label.finish p)
        { m.setView p View.idle with
          returned :=
            Function.update m.returned p
              (m.returned p ++
                [(Call.markDestruct, { ret := 0, out := none })]) }

end Stack
end UnixPrograms
