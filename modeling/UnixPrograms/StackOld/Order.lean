import UnixPrograms.StackOld.Code
import UnixPrograms.Stack.Linearizability
import UnixPrograms.Foundation.Lifo
import UnixPrograms.Foundation.Transition

/-!
# The old stack is linearizable

Any number of processes call `push` and `pop` in the two modes that take
`flag`, with sizes no larger than the segment's number of slots, and any of
them can be killed at any time.  A push counts from the step that posts
`count`, a pop from the one that waits for it; the content of the segment
below `count` is always the replay of these steps.
-/

namespace UnixPrograms
namespace StackOld

open Foundation
open Ipc (Ptr Pid)
open Stack (Request Outcome content)

/-- The segment's number of slots, the size that each process attached with, an
`int` and no larger, and what the segment and `errno` hold before the first
call. -/
structure Config where
  slots : Nat
  size : Pid -> Int
  size_le : forall p, size p ≤ SEM_VALUE_MAX
  size_le_slots : forall p, size p ≤ slots
  memory : Int -> Ptr
  errno : Pid -> Nat

def Config.handle (cfg : Config) (p : Pid) : StackT where
  size := cfg.size p

/-- How a call is made: the mode of the calling process, and what its own code
has left in `errno`. -/
structure Mode where
  timeoutFlag : Int
  errno : Nat

abbrev Status := CallStatus Mode Request (Prog Outcome)

namespace Status

export CallStatus (idle running dead)

end Status

abbrev State := CallState Pid Kernel Mode Request Outcome (Prog Outcome)

abbrev Label := CallLabel Pid Mode Request Unit

namespace Label

export CallLabel (begin atom finish kill)

end Label

def freshVal : Sem -> Nat
  | Sem.count => 0
  | Sem.flag => 1

/-- A new stack: `attach_stack` has posted `flag`. -/
def Config.start (cfg : Config) : State where
  kernel :=
    { val := freshVal
      memory := cfg.memory
      errno := cfg.errno }
  status := fun _ => Status.idle
  returned := fun _ => []

def lockedAfter (locked : Bool) : (op : Op) -> op.Res -> Bool
  | Op.semWait Sem.flag, _ => true
  | Op.semTrywait Sem.flag, ret => if ret = 0 then true else locked
  | Op.semPost Sem.flag, _ => false
  | _, _ => locked

/-- A process that ends leaves the semaphores as they are. -/
def Config.callers (cfg : Config) :
    Callers Pid Kernel Mode Request Outcome Exit Unit Op.Res where
  code := fun p mode request =>
    requestCode mode.timeoutFlag (cfg.handle p) request
  enter := fun p mode kernel => some (kernel.setErrno p mode.errno)
  exec := fun _ p op kernel => kernel.exec cfg.slots p op
  lockedAfter := lockedAfter
  exit := fun _ kernel => kernel

def step (cfg : Config) : State -> Label -> Option State :=
  cfg.callers.step

def LocksFlag : Label -> Prop
  | Label.begin _ mode _ => Locks mode.timeoutFlag
  | _ => True

instance : forall l, Decidable (LocksFlag l)
  | Label.begin _ mode _ =>
      inferInstanceAs (Decidable (Locks mode.timeoutFlag))
  | Label.atom _ _ => isTrue trivial
  | Label.finish _ => isTrue trivial
  | Label.kill _ => isTrue trivial

def performed (s : State) : Label -> Option (Pid × LifoOp Ptr)
  | Label.atom p _ =>
      match (s.status p).nextOp with
      | some (Op.semPost Sem.count) =>
          some (p, LifoOp.push (s.kernel.memory (s.kernel.val Sem.count)))
      | some (Op.semWait Sem.count) =>
          some
            (p, LifoOp.pop
              (s.kernel.memory ((s.kernel.val Sem.count : Int) - 1)))
      | _ => none
  | _ => none

def effect : Request × Outcome -> Option (LifoOp Ptr)
  | (Request.push val, outcome) =>
      if outcome.ret = 0 then some (LifoOp.push val) else none
  | (Request.pop, outcome) =>
      if outcome.ret = 0 then outcome.out.map LifoOp.pop else none

def Performs : Option Request -> LifoOp Ptr -> Prop
  | some (Request.push val), op => op = LifoOp.push val
  | some Request.pop, op => exists val, op = LifoOp.pop val
  | none, _ => False

/-!
## The processes by their points

A run is followed by the points of its processes.  At most one of them is between
the taking of `flag` and its giving back.
-/

inductive View where
  | idle
  | working (mode : Mode) (request : Request) (point : Point)
  | dead (request : Option Request)

namespace View

def status (size : Int) : View -> Status
  | idle => Status.idle
  | working mode request point =>
      Status.running mode request (point.code size request) point.locked
  | dead request => Status.dead request

def inside : View -> Bool
  | working _ _ point => point.inside
  | _ => false

def Facts (cfg : Config) (k : Kernel) (p : Pid) : View -> Prop
  | working _ _ (Point.seeErrno false) => k.errno p = EAGAIN
  | working _ (Request.push _) Point.slot => (k.val Sem.count : Int) < cfg.size p
  | working _ (Request.push _) (Point.access index) =>
      index = k.val Sem.count ∧ (k.val Sem.count : Int) < cfg.size p
  | working _ (Request.push val) Point.commit =>
      k.memory (k.val Sem.count) = val ∧ (k.val Sem.count : Int) < cfg.size p
  | working _ Request.pop Point.slot => k.val Sem.count < cfg.slots
  | working _ Request.pop (Point.access index) =>
      index = k.val Sem.count ∧ k.val Sem.count < cfg.slots
  | working _ Request.pop Point.takeCount => k.val Sem.count ≠ 0
  | working _ (Request.push _) Point.takeCount => False
  | working _ Request.pop Point.commit => False
  | _ => True

def recorded (k : Kernel) : View -> List (LifoOp Ptr)
  | working _ Request.pop Point.slot =>
      [LifoOp.pop (k.memory (k.val Sem.count))]
  | working _ Request.pop (Point.access index) => [LifoOp.pop (k.memory index)]
  | working _ request (Point.release out) =>
      (effect (request, Point.succeeded out)).toList
  | working _ request (Point.done outcome _) => (effect (request, outcome)).toList
  | _ => []

def Agrees (k : Kernel) (returned : List (Request × Outcome))
    (share : List (LifoOp Ptr)) : View -> Prop
  | dead call =>
      share = returned.filterMap effect ∨
        exists op, Performs call op ∧
          share = returned.filterMap effect ++ [op]
  | view => share = returned.filterMap effect ++ view.recorded k

end View

inductive Advance (p : Pid) (size : Int) :
    Request -> Point -> Kernel -> Point -> Kernel -> Prop where
  | wait {request : Request} {k : Kernel} (hflag : k.val Sem.flag ≠ 0) :
      Advance p size request Point.wait k Point.check (k.down Sem.flag)
  | taken {request : Request} {k : Kernel} (hflag : k.val Sem.flag ≠ 0) :
      Advance p size request Point.tryWait k (Point.seeErrno true)
        (k.down Sem.flag)
  | missed {request : Request} {k : Kernel} (hflag : k.val Sem.flag = 0) :
      Advance p size request Point.tryWait k (Point.seeErrno false)
        (k.setErrno p EAGAIN)
  | gaveUp {request : Request} {k : Kernel} {taken : Bool}
      (herrno : k.errno p = EAGAIN) :
      Advance p size request (Point.seeErrno taken) k
        (Point.done Point.failed taken) k
  | sawNone {request : Request} {k : Kernel} (herrno : k.errno p ≠ EAGAIN) :
      Advance p size request (Point.seeErrno true) k Point.check k
  | refused {request : Request} {k : Kernel}
      (hrefused : request.refuses size (k.val Sem.count) = true) :
      Advance p size request Point.check k Point.failRelease k
  | pushes {val : Ptr} {k : Kernel}
      (hroom : (k.val Sem.count : Int) < size) :
      Advance p size (Request.push val) Point.check k Point.slot k
  | pops {k : Kernel} (hsome : k.val Sem.count ≠ 0) :
      Advance p size Request.pop Point.check k Point.takeCount k
  | failRelease {request : Request} {k : Kernel}
      (hflag : k.val Sem.flag ≠ SEM_VALUE_MAX) :
      Advance p size request Point.failRelease k
        (Point.done Point.failed false) (k.up Sem.flag)
  | takeCount {request : Request} {k : Kernel} (hsome : k.val Sem.count ≠ 0) :
      Advance p size request Point.takeCount k Point.slot (k.down Sem.count)
  | slot {request : Request} {k : Kernel} :
      Advance p size request Point.slot k (Point.access (k.val Sem.count)) k
  | store {val : Ptr} {index : Int} {k : Kernel} :
      Advance p size (Request.push val) (Point.access index) k Point.commit
        { k with memory := Function.update k.memory index val }
  | load {index : Int} {k : Kernel} :
      Advance p size Request.pop (Point.access index) k
        (Point.release (some (k.memory index))) k
  | commit {request : Request} {k : Kernel}
      (hcount : k.val Sem.count ≠ SEM_VALUE_MAX) :
      Advance p size request Point.commit k (Point.release none)
        (k.up Sem.count)
  | release {request : Request} {out : Option Ptr} {k : Kernel}
      (hflag : k.val Sem.flag ≠ SEM_VALUE_MAX) :
      Advance p size request (Point.release out) k
        (Point.done (Point.succeeded out) false) (k.up Sem.flag)

/-- The processes at their points.  At most one is between taking `flag` and
giving it back, and while it is, `flag` is 0.  The elements are in the
segment. -/
structure Held (cfg : Config) (s : State) (view : Pid -> View) : Prop where
  status : forall p, s.status p = (view p).status (cfg.size p)
  single : forall p q, (view p).inside = true -> (view q).inside = true -> p = q
  taken : forall p, (view p).inside = true -> s.kernel.val Sem.flag = 0
  flag_le : s.kernel.val Sem.flag ≤ 1
  room : s.kernel.val Sem.count ≤ cfg.slots
  facts : forall p, (view p).Facts cfg s.kernel p

inductive Moves (cfg : Config) (s : State) :
    Label -> View -> View -> Kernel -> List (Request × Outcome) -> Prop where
  | begins {p : Pid} {mode : Mode} {request : Request} :
      Moves cfg s (Label.begin p mode request) View.idle
        (View.working mode request (startPoint mode.timeoutFlag))
        (s.kernel.setErrno p mode.errno) (s.returned p)
  | advances {p : Pid} {mode : Mode} {request : Request} {point point' : Point}
      {kernel : Kernel}
      (h : Advance p (cfg.size p) request point s.kernel point' kernel) :
      Moves cfg s (Label.atom p ()) (View.working mode request point)
        (View.working mode request point') kernel (s.returned p)
  | finishes {p : Pid} {mode : Mode} {request : Request} {outcome : Outcome}
      {locked : Bool} :
      Moves cfg s (Label.finish p)
        (View.working mode request (Point.done outcome locked)) View.idle s.kernel
        (s.returned p ++ [(request, outcome)])
  | dies {p : Pid} {view : View} {call : Option Request}
      (hcall : view = View.idle ∧ call = none ∨
        exists mode request point, view = View.working mode request point ∧
          call = some request) :
      Moves cfg s (Label.kill p) view (View.dead call) s.kernel (s.returned p)

theorem Held.flag_free {cfg : Config} {s : State} {view : Pid -> View} {p : Pid}
    (h : Held cfg s view) (hinside : (view p).inside = true) :
    s.kernel.val Sem.flag ≠ SEM_VALUE_MAX := by
  rw [h.taken p hinside]
  decide

theorem advance_of_exec {cfg : Config} {s : State} {view : Pid -> View}
    {p : Pid} {mode : Mode} {request : Request} {point : Point} {op : Op}
    {next : op.Res -> Prog Outcome} {answer : op.Res} {kernel : Kernel}
    {locked : Bool} (h : Held cfg s view)
    (hview : view p = View.working mode request point)
    (hcode : point.code (cfg.size p) request = Program.call op next)
    (hlocked : point.locked = locked)
    (hexec : s.kernel.exec cfg.slots p op = some (answer, kernel)) :
    exists point', Advance p (cfg.size p) request point s.kernel point' kernel ∧
      next answer = point'.code (cfg.size p) request ∧
      lockedAfter locked op answer = point'.locked := by
  have hfacts := h.facts p
  have hfree : point.inside = true ->
      s.kernel.val Sem.flag ≠ SEM_VALUE_MAX := by
    intro hinside
    apply h.flag_free (p := p)
    rw [hview]
    exact hinside
  rw [hview] at hfacts
  rw [← hlocked]
  cases point with
  | wait =>
      cases hcode
      simp only [Kernel.exec] at hexec
      split at hexec
      · cases hexec
      · rename_i hflag
        cases hexec
        exact ⟨Point.check, Advance.wait hflag, rfl, rfl⟩
  | tryWait =>
      cases hcode
      simp only [Kernel.exec] at hexec
      split at hexec
      · rename_i hflag
        cases hexec
        exact ⟨Point.seeErrno false, Advance.missed hflag, rfl, rfl⟩
      · rename_i hflag
        cases hexec
        exact ⟨Point.seeErrno true, Advance.taken hflag, rfl, rfl⟩
  | seeErrno taken =>
      cases hcode
      cases hexec
      by_cases herrno : s.kernel.errno p = EAGAIN
      · exact ⟨Point.done Point.failed taken, Advance.gaveUp herrno,
          if_pos herrno, rfl⟩
      · cases taken with
        | false => exact absurd hfacts herrno
        | true =>
            exact ⟨Point.check, Advance.sawNone herrno, if_neg herrno, rfl⟩
  | check =>
      cases hcode
      cases hexec
      by_cases hrefused :
          request.refuses (cfg.size p) (s.kernel.val Sem.count) = true
      · refine ⟨Point.failRelease, Advance.refused hrefused, ?_, rfl⟩
        simp only [Int.le_refl, if_true, hrefused]
        rfl
      · cases request with
        | push val =>
            refine ⟨Point.slot, Advance.pushes ?_, ?_, rfl⟩
            · simp only [Request.refuses, decide_eq_true_eq] at hrefused
              exact Int.lt_of_not_ge hrefused
            · simp only [Int.le_refl, if_true, hrefused]
              rfl
        | pop =>
            refine ⟨Point.takeCount, Advance.pops ?_, ?_, rfl⟩
            · simp only [Request.refuses, decide_eq_true_eq] at hrefused
              lia
            · simp only [Int.le_refl, if_true, hrefused]
              rfl
  | failRelease =>
      cases hcode
      simp only [Kernel.exec, if_neg (hfree rfl)] at hexec
      cases hexec
      exact ⟨_, Advance.failRelease (hfree rfl), rfl, rfl⟩
  | takeCount =>
      cases hcode
      simp only [Kernel.exec] at hexec
      split at hexec
      · cases hexec
      · rename_i hcount
        cases hexec
        exact ⟨Point.slot, Advance.takeCount hcount, rfl, rfl⟩
  | slot =>
      cases hcode
      cases hexec
      refine ⟨_, Advance.slot, ?_, rfl⟩
      simp only [Int.le_refl, if_true]
      rfl
  | access index =>
      cases request with
      | push val =>
          cases hcode
          simp only [Kernel.exec] at hexec
          split at hexec
          · cases hexec
            exact ⟨Point.commit, Advance.store, rfl, rfl⟩
          · cases hexec
      | pop =>
          cases hcode
          simp only [Kernel.exec] at hexec
          split at hexec
          · cases hexec
            exact ⟨_, Advance.load, rfl, rfl⟩
          · cases hexec
  | commit =>
      cases request with
      | pop => exact hfacts.elim
      | push val =>
          have hcount : s.kernel.val Sem.count ≠ SEM_VALUE_MAX := by
            have hsize := cfg.size_le p
            have hroom := hfacts.right
            lia
          cases hcode
          simp only [Kernel.exec, if_neg hcount] at hexec
          cases hexec
          exact ⟨_, Advance.commit hcount, rfl, rfl⟩
  | release out =>
      cases hcode
      simp only [Kernel.exec, if_neg (hfree rfl)] at hexec
      cases hexec
      exact ⟨_, Advance.release (hfree rfl), rfl, rfl⟩
  | done outcome locked => cases hcode

theorem status_idle {size : Int} {view : View}
    (h : view.status size = Status.idle) : view = View.idle := by
  cases view with
  | idle => rfl
  | working mode request point => cases h
  | dead request => cases h

theorem status_running {size : Int} {view : View} {mode : Mode}
    {request : Request} {code : Prog Outcome} {locked : Bool}
    (h : view.status size = Status.running mode request code locked) :
    exists point, view = View.working mode request point ∧
      point.code size request = code ∧ point.locked = locked := by
  cases view with
  | idle => cases h
  | working mode' request' point =>
      cases h
      exact ⟨point, rfl, rfl, rfl⟩
  | dead request' => cases h

theorem status_alive {size : Int} {view : View}
    (h : (view.status size).alive = true) :
    view = View.idle ∨
      exists mode request point, view = View.working mode request point := by
  cases view with
  | idle => exact Or.inl rfl
  | working mode request point => exact Or.inr ⟨mode, request, point, rfl⟩
  | dead request => cases h

theorem code_ret {size : Int} {request : Request} {point : Point}
    {outcome : Outcome} (h : point.code size request = Program.ret outcome) :
    exists locked, point = Point.done outcome locked := by
  cases point with
  | done outcome' locked =>
      cases h
      exact ⟨locked, rfl⟩
  | access index => cases request <;> cases h
  | _ => cases h

theorem code_halt {size : Int} {request : Request} {point : Point}
    {reason : Exit} : point.code size request ≠ Program.halt reason := by
  intro h
  cases point with
  | access index => cases request <;> cases h
  | _ => cases h

theorem locked_startPoint {timeoutFlag : Int} (h : Locks timeoutFlag) :
    (startPoint timeoutFlag).locked = false := by
  rcases h with hzero | hminus
  · rw [startPoint, if_pos hzero]
    rfl
  · rw [startPoint, hminus]
    rfl

theorem step_moves {cfg : Config} {s s' : State} {view : Pid -> View}
    {l : Label} (h : Held cfg s view) (hlocks : LocksFlag l)
    (hstep : step cfg s l = some s') :
    exists view', Moves cfg s l (view l.actor) view' s'.kernel
        (s'.returned l.actor) ∧
      (forall p, s'.status p =
        (Function.update view l.actor view' p).status (cfg.size p)) ∧
      forall p, p ≠ l.actor -> s'.returned p = s.returned p := by
  have hdoes := Callers.Step.of_step hstep
  have hself : exists view', Moves cfg s l (view l.actor) view' s'.kernel
        (s'.returned l.actor) ∧
      s'.status l.actor = view'.status (cfg.size l.actor) := by
    cases hdoes with
    | begins hidle henter =>
        rename_i p mode request kernel
        have hview := status_idle ((h.status p).symm.trans hidle)
        cases henter
        refine ⟨View.working mode request (startPoint mode.timeoutFlag), ?_, ?_⟩
        · change Moves cfg s _ (view p) _ _ _
          rw [hview]
          exact Moves.begins
        · change Function.update s.status p _ p = _
          rw [Function.update_self, View.status, locked_startPoint hlocks]
          change Status.running mode request
            (requestCode mode.timeoutFlag (cfg.handle p) request) false = _
          rw [requestCode_eq]
          rfl
    | operates hrunning hexec =>
        rename_i p choice mode request op next locked answer kernel
        rcases status_running ((h.status p).symm.trans hrunning) with
          ⟨point, hview, hcode, hlocked⟩
        rcases advance_of_exec h hview hcode hlocked hexec with
          ⟨point', hadvance, hnext, hafter⟩
        refine ⟨View.working mode request point', ?_, ?_⟩
        · change Moves cfg s _ (view p) _ _ _
          rw [hview]
          exact Moves.advances hadvance
        · change Function.update s.status p _ p = _
          rw [Function.update_self, hnext]
          change Status.running mode request _ (lockedAfter locked op answer) = _
          rw [hafter]
          rfl
    | halts hrunning =>
        rename_i p choice mode request reason locked
        rcases status_running ((h.status p).symm.trans hrunning) with
          ⟨point, _, hcode, _⟩
        exact absurd hcode code_halt
    | finishes hrunning =>
        rename_i p mode request outcome locked
        rcases status_running ((h.status p).symm.trans hrunning) with
          ⟨point, hview, hcode, _⟩
        rcases code_ret hcode with ⟨locked', hpoint⟩
        refine ⟨View.idle, ?_, Function.update_self _ _ _⟩
        change Moves cfg s _ (view p) _ _ (Function.update s.returned p
          (s.returned p ++ [(request, outcome)]) p)
        rw [Function.update_self, hview, hpoint]
        exact Moves.finishes
    | killed halive =>
        rename_i p
        rw [h.status p] at halive
        refine ⟨View.dead (s.status p).call, ?_, Function.update_self _ _ _⟩
        change Moves cfg s _ (view p) _ _ _
        rw [h.status p]
        rcases status_alive halive with hview | ⟨mode, request, point, hview⟩
        · rw [hview]
          exact Moves.dies (Or.inl ⟨rfl, rfl⟩)
        · rw [hview]
          exact Moves.dies (Or.inr ⟨mode, request, point, rfl, rfl⟩)
  rcases hself with ⟨view', hmoves, hstatus⟩
  refine ⟨view', hmoves, fun q => ?_, fun q hq => (hdoes.others hq).right⟩
  by_cases hq : q = l.actor
  · rw [hq, Function.update_self]
    exact hstatus
  · rw [Function.update_of_ne hq, (hdoes.others hq).left]
    exact h.status q

/-!
## What one operation changes
-/

theorem Advance.flag {p : Pid} {size : Int} {request : Request}
    {point point' : Point} {k k' : Kernel}
    (h : Advance p size request point k point' k') :
    point'.inside = point.inside ∧ k'.val Sem.flag = k.val Sem.flag ∨
      (point.inside = false ∧ point'.inside = true ∧ k.val Sem.flag ≠ 0 ∧
        k'.val Sem.flag = k.val Sem.flag - 1) ∨
      (point.inside = true ∧ point'.inside = false ∧
        (k'.val Sem.flag = k.val Sem.flag + 1 ∨
          k'.val Sem.flag = k.val Sem.flag ∧ point = Point.seeErrno true ∧
            k.errno p = EAGAIN)) := by
  cases h with
  | wait hflag => exact Or.inr (Or.inl ⟨rfl, rfl, hflag, rfl⟩)
  | taken hflag => exact Or.inr (Or.inl ⟨rfl, rfl, hflag, rfl⟩)
  | gaveUp herrno =>
      rename_i taken
      cases taken with
      | false => exact Or.inl ⟨rfl, rfl⟩
      | true => exact Or.inr (Or.inr ⟨rfl, rfl, Or.inr ⟨rfl, rfl, herrno⟩⟩)
  | failRelease hflag => exact Or.inr (Or.inr ⟨rfl, rfl, Or.inl rfl⟩)
  | release hflag => exact Or.inr (Or.inr ⟨rfl, rfl, Or.inl rfl⟩)
  | _ => exact Or.inl ⟨rfl, rfl⟩

theorem Advance.errno_other {p q : Pid} {size : Int} {request : Request}
    {point point' : Point} {k k' : Kernel}
    (h : Advance p size request point k point' k') (hq : q ≠ p) :
    k'.errno q = k.errno q := by
  cases h with
  | missed hflag => exact Function.update_of_ne hq _ _
  | _ => rfl

theorem Advance.outside {p : Pid} {size : Int} {request : Request}
    {point point' : Point} {k k' : Kernel}
    (h : Advance p size request point k point' k')
    (houtside : point.inside = false) :
    k'.val Sem.count = k.val Sem.count ∧ k'.memory = k.memory := by
  cases h with
  | wait hflag => exact ⟨rfl, rfl⟩
  | taken hflag => exact ⟨rfl, rfl⟩
  | missed hflag => exact ⟨rfl, rfl⟩
  | gaveUp herrno => exact ⟨rfl, rfl⟩
  | _ => cases houtside

theorem Advance.facts {cfg : Config} {p : Pid} {mode : Mode}
    {request : Request} {point point' : Point} {k k' : Kernel}
    (h : Advance p (cfg.size p) request point k point' k')
    (hroom : k.val Sem.count ≤ cfg.slots)
    (hfacts : (View.working mode request point).Facts cfg k p) :
    (View.working mode request point').Facts cfg k' p := by
  cases h with
  | missed hflag =>
      have herrno : (k.setErrno p EAGAIN).errno p = EAGAIN :=
        Function.update_self _ _ _
      cases request <;> exact herrno
  | pushes hroom => exact hroom
  | pops hsome => exact hsome
  | takeCount hsome =>
      cases request with
      | push val => exact hfacts.elim
      | pop =>
          change k.val Sem.count - 1 < cfg.slots
          lia
  | slot => cases request <;> exact ⟨rfl, hfacts⟩
  | store =>
      refine ⟨?_, hfacts.right⟩
      rw [← hfacts.left]
      exact Function.update_self _ _ _
  | load => trivial
  | _ => cases request <;> trivial

theorem Advance.room {cfg : Config} {p : Pid} {mode : Mode}
    {request : Request} {point point' : Point} {k k' : Kernel}
    (h : Advance p (cfg.size p) request point k point' k')
    (hroom : k.val Sem.count ≤ cfg.slots)
    (hfacts : (View.working mode request point).Facts cfg k p) :
    k'.val Sem.count ≤ cfg.slots := by
  cases h with
  | takeCount hsome =>
      change k.val Sem.count - 1 ≤ cfg.slots
      lia
  | commit hcount =>
      cases request with
      | pop => exact hfacts.elim
      | push val =>
          have hsize := cfg.size_le_slots p
          have hless := hfacts.right
          change k.val Sem.count + 1 ≤ cfg.slots
          lia
  | _ => exact hroom

theorem facts_congr {cfg : Config} {k k' : Kernel} {q : Pid} {view : View}
    (herrno : k'.errno q = k.errno q)
    (hinside : view.inside = true ->
      k'.val Sem.count = k.val Sem.count ∧ k'.memory = k.memory)
    (h : view.Facts cfg k q) : view.Facts cfg k' q := by
  cases view with
  | idle => trivial
  | dead request => trivial
  | working mode request point =>
      cases point with
      | seeErrno taken =>
          cases taken with
          | true => cases request <;> trivial
          | false => cases request <;> exact herrno.trans h
      | slot =>
          rcases hinside rfl with ⟨hcount, hmemory⟩
          cases request with
          | push val =>
              change (k'.val Sem.count : Int) < cfg.size q
              rw [hcount]
              exact h
          | pop =>
              change k'.val Sem.count < cfg.slots
              rw [hcount]
              exact h
      | access index =>
          rcases hinside rfl with ⟨hcount, hmemory⟩
          cases request with
          | push val =>
              change index = k'.val Sem.count ∧
                (k'.val Sem.count : Int) < cfg.size q
              rw [hcount]
              exact h
          | pop =>
              change index = k'.val Sem.count ∧ k'.val Sem.count < cfg.slots
              rw [hcount]
              exact h
      | commit =>
          rcases hinside rfl with ⟨hcount, hmemory⟩
          cases request with
          | push val =>
              change k'.memory (k'.val Sem.count) = val ∧
                (k'.val Sem.count : Int) < cfg.size q
              rw [hcount, hmemory]
              exact h
          | pop => exact h
      | takeCount =>
          rcases hinside rfl with ⟨hcount, hmemory⟩
          cases request with
          | push val => exact h
          | pop =>
              change k'.val Sem.count ≠ 0
              rw [hcount]
              exact h
      | wait => cases request <;> trivial
      | tryWait => cases request <;> trivial
      | check => cases request <;> trivial
      | failRelease => cases request <;> trivial
      | release out => cases request <;> trivial
      | done outcome locked => cases request <;> trivial

/-!
## The lock
-/

theorem Moves.effect_on_others {cfg : Config} {s : State} {l : Label}
    {view view' : View} {kernel : Kernel} {returned : List (Request × Outcome)}
    (h : Moves cfg s l view view' kernel returned) :
    (forall q, q ≠ l.actor -> kernel.errno q = s.kernel.errno q) ∧
      (view.inside = false -> kernel.val Sem.count = s.kernel.val Sem.count ∧
        kernel.memory = s.kernel.memory) := by
  cases h with
  | begins =>
      refine ⟨fun q hq => ?_, fun _ => ⟨rfl, rfl⟩⟩
      exact Function.update_of_ne hq _ _
  | advances hadvance =>
      exact ⟨fun q hq => hadvance.errno_other hq,
        fun houtside => hadvance.outside houtside⟩
  | finishes => exact ⟨fun _ _ => rfl, fun _ => ⟨rfl, rfl⟩⟩
  | dies hcall => exact ⟨fun _ _ => rfl, fun _ => ⟨rfl, rfl⟩⟩

theorem startPoint_inside {timeoutFlag : Int} (h : Locks timeoutFlag) :
    (startPoint timeoutFlag).inside = false := by
  rcases h with hzero | hminus
  · rw [startPoint, if_pos hzero]
    rfl
  · rw [startPoint, hminus]
    rfl

theorem Moves.flag {cfg : Config} {s : State} {l : Label}
    {view view' : View} {kernel : Kernel} {returned : List (Request × Outcome)}
    (h : Moves cfg s l view view' kernel returned) (hlocks : LocksFlag l) :
    kernel.val Sem.flag = s.kernel.val Sem.flag ∧
        (view'.inside = true -> view.inside = true) ∨
      (view.inside = false ∧ view'.inside = true ∧
        s.kernel.val Sem.flag ≠ 0 ∧
        kernel.val Sem.flag = s.kernel.val Sem.flag - 1) ∨
      (view.inside = true ∧ view'.inside = false ∧
        kernel.val Sem.flag = s.kernel.val Sem.flag + 1) := by
  cases h with
  | begins =>
      refine Or.inl ⟨rfl, fun hinside => ?_⟩
      have hoff := startPoint_inside hlocks
      change (startPoint _).inside = true at hinside
      rw [hoff] at hinside
      cases hinside
  | advances hadvance =>
      rcases hadvance.flag with ⟨hsame, hflag⟩ | hin | ⟨hinside, hout, hup⟩
      · exact Or.inl ⟨hflag, fun hinside => hsame.symm.trans hinside⟩
      · exact Or.inr (Or.inl hin)
      · rcases hup with hup | ⟨hflag, _⟩
        · exact Or.inr (Or.inr ⟨hinside, hout, hup⟩)
        · exact Or.inl ⟨hflag, fun _ => hinside⟩
  | finishes => exact Or.inl ⟨rfl, fun hcontra => by cases hcontra⟩
  | dies hcall => exact Or.inl ⟨rfl, fun hcontra => by cases hcontra⟩

theorem Moves.facts {cfg : Config} {s : State} {l : Label}
    {view view' : View} {kernel : Kernel} {returned : List (Request × Outcome)}
    (h : Moves cfg s l view view' kernel returned) (hlocks : LocksFlag l)
    (hroom : s.kernel.val Sem.count ≤ cfg.slots)
    (hfacts : view.Facts cfg s.kernel l.actor) :
    view'.Facts cfg kernel l.actor := by
  cases h with
  | begins =>
      rename_i p mode request
      unfold startPoint
      rcases hlocks with hzero | hminus
      · rw [if_pos hzero]
        cases request <;> trivial
      · rw [hminus]
        cases request <;> trivial
  | advances hadvance => exact hadvance.facts hroom hfacts
  | finishes => trivial
  | dies hcall => trivial

theorem Moves.room {cfg : Config} {s : State} {l : Label}
    {view view' : View} {kernel : Kernel} {returned : List (Request × Outcome)}
    (h : Moves cfg s l view view' kernel returned)
    (hroom : s.kernel.val Sem.count ≤ cfg.slots)
    (hfacts : view.Facts cfg s.kernel l.actor) :
    kernel.val Sem.count ≤ cfg.slots := by
  cases h with
  | advances hadvance => exact hadvance.room hroom hfacts
  | _ => exact hroom

theorem held_step {cfg : Config} {s s' : State} {view : Pid -> View} {l : Label}
    {view' : View} {kernel : Kernel} {returned : List (Request × Outcome)}
    (h : Held cfg s view) (hlocks : LocksFlag l)
    (hmoves : Moves cfg s l (view l.actor) view' kernel returned)
    (hkernel : s'.kernel = kernel)
    (hstatus : forall p, s'.status p =
      (Function.update view l.actor view' p).status (cfg.size p)) :
    Held cfg s' (Function.update view l.actor view') := by
  have hothers := hmoves.effect_on_others
  have hflag := hmoves.flag hlocks
  have hself : Function.update view l.actor view' l.actor = view' :=
    Function.update_self _ _ _
  have hrest : forall q, q ≠ l.actor ->
      Function.update view l.actor view' q = view q :=
    fun q hq => Function.update_of_ne hq _ _
  have halone : forall q, q ≠ l.actor -> (view q).inside = true ->
      view'.inside = false := by
    intro q hq hinside
    cases hafter : view'.inside with
    | false => rfl
    | true =>
        rcases hflag with ⟨_, hbefore⟩ | ⟨_, _, hfree, _⟩ | ⟨_, hout, _⟩
        · exact absurd (h.single q l.actor hinside (hbefore hafter)) hq
        · exact absurd (h.taken q hinside) hfree
        · rw [hafter] at hout
          cases hout
  constructor
  case status => exact hstatus
  case single =>
    intro p q hp hq
    by_cases hpl : p = l.actor
    · by_cases hql : q = l.actor
      · rw [hpl, hql]
      · rw [hpl, hself] at hp
        rw [hrest q hql] at hq
        rw [halone q hql hq] at hp
        cases hp
    · by_cases hql : q = l.actor
      · rw [hql, hself] at hq
        rw [hrest p hpl] at hp
        rw [halone p hpl hp] at hq
        cases hq
      · rw [hrest p hpl] at hp
        rw [hrest q hql] at hq
        exact h.single p q hp hq
  case taken =>
    intro p hp
    rw [hkernel]
    by_cases hpl : p = l.actor
    · rw [hpl, hself] at hp
      rcases hflag with ⟨hsame, hbefore⟩ | ⟨_, _, hfree, hdown⟩ | ⟨_, hout, _⟩
      · rw [hsame]
        exact h.taken l.actor (hbefore hp)
      · have hle := h.flag_le
        lia
      · rw [hp] at hout
        cases hout
    · rw [hrest p hpl] at hp
      have hzero := h.taken p hp
      rcases hflag with ⟨hsame, _⟩ | ⟨_, _, hfree, _⟩ | ⟨hin, _, _⟩
      · rw [hsame]
        exact hzero
      · exact absurd hzero hfree
      · exact absurd (h.single p l.actor hp hin) hpl
  case flag_le =>
    have hle := h.flag_le
    rw [hkernel]
    rcases hflag with ⟨hsame, _⟩ | ⟨_, _, _, hdown⟩ | ⟨hin, _, hup⟩
    · rw [hsame]
      exact hle
    · lia
    · rw [hup, h.taken l.actor hin]
  case room =>
    rw [hkernel]
    exact hmoves.room h.room (h.facts l.actor)
  case facts =>
    intro q
    rw [hkernel]
    by_cases hq : q = l.actor
    · rw [hq, hself]
      exact hmoves.facts hlocks h.room (h.facts l.actor)
    · rw [hrest q hq]
      refine facts_congr (hothers.left q hq) ?_ (h.facts q)
      intro hinside
      apply hothers.right
      cases hactor : (view l.actor).inside with
      | false => rfl
      | true => exact absurd (h.single q l.actor hinside hactor) hq

/-!
## The order

The operations are ordered by the steps that are about to change `count`.  The
order so far is kept beside the run and replayed to the content of the
segment.
-/

def Point.moved (k : Kernel) : Point -> Option (LifoOp Ptr)
  | Point.commit => some (LifoOp.push (k.memory (k.val Sem.count)))
  | Point.takeCount =>
      some (LifoOp.pop (k.memory ((k.val Sem.count : Int) - 1)))
  | _ => none

theorem performed_atom {s : State} {p : Pid} {size : Int} {mode : Mode}
    {request : Request} {point : Point}
    (h : s.status p = (View.working mode request point).status size) :
    performed s (Label.atom p ()) =
      (point.moved s.kernel).map (fun op => (p, op)) := by
  simp only [performed, h, View.status]
  cases point with
  | access index => cases request <;> rfl
  | _ => rfl

theorem Advance.content_after {cfg : Config} {p : Pid} {size : Int}
    {mode : Mode} {request : Request} {point point' : Point} {k k' : Kernel}
    (h : Advance p size request point k point' k')
    (hfacts : (View.working mode request point).Facts cfg k p) :
    some (content k'.memory (k'.val Sem.count)) =
      (point.moved k).elim (some (content k.memory (k.val Sem.count)))
        (Lifo.apply (content k.memory (k.val Sem.count))) := by
  cases h with
  | commit hcount => rfl
  | takeCount hsome =>
      rcases Nat.exists_eq_succ_of_ne_zero hsome with ⟨n, hn⟩
      have hcast : ((n + 1 : Nat) : Int) - 1 = n := by
        lia
      change some (content k.memory (k.val Sem.count - 1)) =
        Lifo.apply (content k.memory (k.val Sem.count))
          (LifoOp.pop (k.memory ((k.val Sem.count : Int) - 1)))
      rw [hn, Nat.succ_eq_add_one, Nat.add_sub_cancel, hcast, content]
      exact (Lifo.apply_pop_top _ _).symm
  | store =>
      have hindex := hfacts.left
      change some (content (Function.update k.memory _ _) _) = some _
      rw [Stack.content_update _ _ _ _ (by rw [hindex])]
  | _ => rfl

theorem Advance.recorded {cfg : Config} {p : Pid} {size : Int}
    {mode : Mode} {request : Request} {point point' : Point} {k k' : Kernel}
    (h : Advance p size request point k point' k')
    (hfacts : (View.working mode request point).Facts cfg k p) :
    (View.working mode request point').recorded k' =
      (View.working mode request point).recorded k ++ (point.moved k).toList := by
  have hfailed : (effect (request, Point.failed)).toList = [] := by
    cases request <;> rfl
  cases h with
  | gaveUp herrno => cases request <;> exact hfailed
  | failRelease hflag => cases request <;> exact hfailed
  | takeCount hsome =>
      cases request with
      | push val => exact hfacts.elim
      | pop =>
          have hcast : ((k.val Sem.count - 1 : Nat) : Int) =
              (k.val Sem.count : Int) - 1 := by
            lia
          change [LifoOp.pop (k.memory ((k.val Sem.count - 1 : Nat) : Int))] =
            [LifoOp.pop (k.memory ((k.val Sem.count : Int) - 1))]
          rw [hcast]
  | commit hcount =>
      cases request with
      | pop => exact hfacts.elim
      | push val =>
          change [LifoOp.push val] =
            [LifoOp.push (k.memory (k.val Sem.count))]
          rw [hfacts.left]
  | pushes hroom => rfl
  | pops hsome => rfl
  | store => rfl
  | load => rfl
  | release hflag => cases request <;> exact (List.append_nil _).symm
  | _ => cases request <;> rfl

theorem recorded_congr {k k' : Kernel} {view : View}
    (hinside : view.inside = true ->
      k'.val Sem.count = k.val Sem.count ∧ k'.memory = k.memory) :
    view.recorded k' = view.recorded k := by
  cases view with
  | idle => rfl
  | dead request => rfl
  | working mode request point =>
      cases point with
      | slot =>
          rcases hinside rfl with ⟨hcount, hmemory⟩
          cases request with
          | push val => rfl
          | pop =>
              change [LifoOp.pop (k'.memory (k'.val Sem.count))] = _
              rw [hcount, hmemory]
              rfl
      | access index =>
          rcases hinside rfl with ⟨hcount, hmemory⟩
          cases request with
          | push val => rfl
          | pop =>
              change [LifoOp.pop (k'.memory index)] = _
              rw [hmemory]
              rfl
      | _ => cases request <;> rfl

theorem recorded_performs (k : Kernel) {mode : Mode} (request : Request)
    (point : Point) :
    (View.working mode request point).recorded k = [] ∨
      exists op, Performs (some request) op ∧
        (View.working mode request point).recorded k = [op] := by
  have houtcome : forall outcome,
      (effect (request, outcome)).toList = [] ∨
        exists op, Performs (some request) op ∧
          (effect (request, outcome)).toList = [op] := by
    intro outcome
    by_cases hret : outcome.ret = 0
    · cases request with
      | push val =>
          refine Or.inr ⟨LifoOp.push val, rfl, ?_⟩
          simp [effect, hret]
      | pop =>
          cases hout : outcome.out with
          | none => exact Or.inl (by simp [effect, hret, hout])
          | some val =>
              refine Or.inr ⟨LifoOp.pop val, ⟨val, rfl⟩, ?_⟩
              simp [effect, hret, hout]
    · refine Or.inl ?_
      cases request <;> simp [effect, hret]
  cases point with
  | release out => cases request <;> exact houtcome (Point.succeeded out)
  | done outcome locked => cases request <;> exact houtcome outcome
  | slot =>
      cases request with
      | push val => exact Or.inl rfl
      | pop => exact Or.inr ⟨_, ⟨_, rfl⟩, rfl⟩
  | access index =>
      cases request with
      | push val => exact Or.inl rfl
      | pop => exact Or.inr ⟨_, ⟨_, rfl⟩, rfl⟩
  | _ => cases request <;> exact Or.inl rfl

/-- The invariant with the operations so far: they explain the content, and
each process has its share. -/
structure Ordered (cfg : Config) (past : List (Pid × LifoOp Ptr)) (s : State)
    (view : Pid -> View) : Prop where
  held : Held cfg s view
  replay : Lifo.replay [] (past.map Prod.snd) =
    some (content s.kernel.memory (s.kernel.val Sem.count))
  agrees : forall p,
    (view p).Agrees s.kernel (s.returned p) (projection p past)

theorem ordered_start (cfg : Config) :
    Ordered cfg [] cfg.start (fun _ => View.idle) where
  held :=
    { status := fun _ => rfl
      single := fun _ _ hcontra => by cases hcontra
      taken := fun _ hcontra => by cases hcontra
      flag_le := Nat.le_refl 1
      room := Nat.zero_le cfg.slots
      facts := fun _ => trivial }
  replay := rfl
  agrees := fun _ => rfl

theorem projection_other {p : Pid} {l : Label} {s : State}
    (past : List (Pid × LifoOp Ptr)) (hp : p ≠ l.actor) :
    projection p (past ++ (performed s l).toList) = projection p past := by
  cases hperformed : performed s l with
  | none => simp
  | some entry =>
      have hactor : entry.1 = l.actor := by
        cases l with
        | atom q choice =>
            simp only [performed] at hperformed
            split at hperformed
            · cases hperformed
              rfl
            · cases hperformed
              rfl
            · cases hperformed
        | _ => cases hperformed
      have hne : p ≠ entry.1 := fun heq => hp (heq.trans hactor)
      exact projection_snoc_of_ne hne past entry.2

theorem agrees_congr {k k' : Kernel} {returned : List (Request × Outcome)}
    {share : List (LifoOp Ptr)} {view : View}
    (hinside : view.inside = true ->
      k'.val Sem.count = k.val Sem.count ∧ k'.memory = k.memory)
    (h : view.Agrees k returned share) : view.Agrees k' returned share := by
  cases view with
  | dead call => exact h
  | idle => exact h
  | working mode request point =>
      change share = _ ++ View.recorded k' _
      rw [recorded_congr hinside]
      exact h

theorem Moves.agrees {cfg : Config} {s : State} {l : Label} {view view' : View}
    {kernel : Kernel} {returned : List (Request × Outcome)}
    (h : Moves cfg s l view view' kernel returned) (hlocks : LocksFlag l)
    (hstatus : s.status l.actor = view.status (cfg.size l.actor))
    (hfacts : view.Facts cfg s.kernel l.actor)
    {past : List (Pid × LifoOp Ptr)}
    (hagrees : view.Agrees s.kernel (s.returned l.actor)
      (projection l.actor past)) :
    view'.Agrees kernel returned
      (projection l.actor (past ++ (performed s l).toList)) := by
  cases h with
  | begins =>
      rename_i p mode request
      have hnone : (View.working mode request
          (startPoint mode.timeoutFlag)).recorded
          (s.kernel.setErrno p mode.errno) = [] := by
        unfold startPoint
        rcases hlocks with hzero | hminus
        · rw [if_pos hzero]
          cases request <;> rfl
        · rw [hminus]
          cases request <;> rfl
      change projection p (past ++ []) = _ ++ View.recorded _ _
      rw [hnone, List.append_nil]
      exact hagrees
  | advances hadvance =>
      rename_i p mode request point point'
      have hperformed : performed s (Label.atom p ()) =
          (point.moved s.kernel).map (fun op => (p, op)) :=
        performed_atom hstatus
      change projection p _ = _ ++ View.recorded _ _
      rw [hadvance.recorded hfacts, hperformed, ← List.append_assoc]
      change projection p past =
        (s.returned p).filterMap effect ++ View.recorded _ _ at hagrees
      rw [← hagrees]
      cases point.moved s.kernel with
      | none => simp
      | some op => exact projection_snoc_self p past op
  | finishes =>
      rename_i p mode request outcome locked
      change projection p (past ++ []) = _ ++ []
      change projection p past = _ ++ View.recorded _ _ at hagrees
      rw [List.append_nil, List.append_nil, hagrees, List.filterMap_append]
      congr 1
      cases request <;> rfl
  | dies hcall =>
      rename_i p call
      have hsame : past ++ (performed s (Label.kill p)).toList = past :=
        List.append_nil past
      rw [hsame]
      rcases hcall with ⟨hview, _⟩ | ⟨mode, request, point, hview, hcall⟩
      · rw [hview] at hagrees
        exact Or.inl (hagrees.trans (List.append_nil _))
      · rw [hview] at hagrees
        rw [hcall]
        change projection p past = _ ++ View.recorded _ _ at hagrees
        rcases recorded_performs s.kernel request point with
          hnil | ⟨op, hop, hone⟩
        · rw [hnil, List.append_nil] at hagrees
          exact Or.inl hagrees
        · rw [hone] at hagrees
          exact Or.inr ⟨op, hop, hagrees⟩

theorem Moves.replay {cfg : Config} {s : State} {l : Label} {view view' : View}
    {kernel : Kernel} {returned : List (Request × Outcome)}
    (h : Moves cfg s l view view' kernel returned)
    (hstatus : s.status l.actor = view.status (cfg.size l.actor))
    (hfacts : view.Facts cfg s.kernel l.actor)
    {past : List (Pid × LifoOp Ptr)}
    (hreplay : Lifo.replay [] (past.map Prod.snd) =
      some (content s.kernel.memory (s.kernel.val Sem.count))) :
    Lifo.replay [] ((past ++ (performed s l).toList).map Prod.snd) =
      some (content kernel.memory (kernel.val Sem.count)) := by
  cases h with
  | advances hadvance =>
      rename_i p mode request point point'
      have hperformed : performed s (Label.atom p ()) =
          (point.moved s.kernel).map (fun op => (p, op)) :=
        performed_atom hstatus
      rw [hadvance.content_after hfacts, hperformed]
      cases point.moved s.kernel with
      | none =>
          rw [Option.map_none, Option.toList_none, List.append_nil]
          exact hreplay
      | some op =>
          rw [List.map_append]
          exact Lifo.replay_snoc op hreplay
  | begins =>
      change Lifo.replay [] ((past ++ []).map Prod.snd) = _
      rw [List.append_nil]
      exact hreplay
  | finishes =>
      change Lifo.replay [] ((past ++ []).map Prod.snd) = _
      rw [List.append_nil]
      exact hreplay
  | dies hcall =>
      change Lifo.replay [] ((past ++ []).map Prod.snd) = _
      rw [List.append_nil]
      exact hreplay

theorem ordered_step {cfg : Config} {past : List (Pid × LifoOp Ptr)}
    {s s' : State} {view : Pid -> View} {l : Label}
    (h : Ordered cfg past s view) (hlocks : LocksFlag l)
    (hstep : step cfg s l = some s') :
    exists view', Ordered cfg (past ++ (performed s l).toList) s' view' := by
  rcases step_moves h.held hlocks hstep with
    ⟨view', hmoves, hstatus, hreturned⟩
  refine ⟨Function.update view l.actor view', ?_, ?_, ?_⟩
  · exact held_step h.held hlocks hmoves rfl hstatus
  · exact hmoves.replay (h.held.status l.actor) (h.held.facts l.actor) h.replay
  · intro q
    by_cases hq : q = l.actor
    · rw [hq, Function.update_self]
      exact hmoves.agrees hlocks (h.held.status l.actor)
        (h.held.facts l.actor) (h.agrees l.actor)
    · rw [Function.update_of_ne hq, projection_other past hq, hreturned q hq]
      refine agrees_congr ?_ (h.agrees q)
      intro hinside
      apply hmoves.effect_on_others.right
      cases hactor : (view l.actor).inside with
      | false => rfl
      | true => exact absurd (h.held.single q l.actor hinside hactor) hq

def order (cfg : Config) (labels : List Label) : List (Pid × LifoOp Ptr) :=
  emitted (step cfg) performed cfg.start labels

theorem ordered_run {cfg : Config} {labels : List Label} {s : State}
    (hlocks : forall l, l ∈ labels -> LocksFlag l)
    (hrun : run (step cfg) cfg.start labels = some s) :
    exists view, Ordered cfg (order cfg labels) s view := by
  apply run_emits (fun past s => exists view, Ordered cfg past s view) _
    ⟨_, ordered_start cfg⟩ (allSteps_of_mem hlocks cfg.start) hrun
  intro past s l s' hs hguard hstep
  rcases hs with ⟨view, hordered⟩
  exact ordered_step hordered hguard hstep

/-- The content of the segment is the replay of the operations in the order of
their steps, and each process's part of this order is that of its calls: those
that returned 0, and at most its last one, not returned yet or killed. -/
theorem old_order {cfg : Config} {labels : List Label} {s : State}
    (hlocks : forall l, l ∈ labels -> LocksFlag l)
    (hrun : run (step cfg) cfg.start labels = some s) :
    Lifo.replay [] ((order cfg labels).map Prod.snd) =
        some (content s.kernel.memory (s.kernel.val Sem.count)) ∧
      forall p, projection p (order cfg labels) =
          (s.returned p).filterMap effect ∨
        exists op, Performs (s.status p).call op ∧
          projection p (order cfg labels) =
            (s.returned p).filterMap effect ++ [op] := by
  rcases ordered_run hlocks hrun with ⟨view, h⟩
  refine ⟨h.replay, fun p => ?_⟩
  have hagrees := h.agrees p
  rw [h.held.status p]
  cases hview : view p with
  | idle =>
      rw [hview] at hagrees
      exact Or.inl (hagrees.trans (List.append_nil _))
  | dead call =>
      rw [hview] at hagrees
      exact hagrees
  | working mode request point =>
      rw [hview] at hagrees
      change projection p _ = _ ++ View.recorded _ _ at hagrees
      rcases recorded_performs s.kernel request point with
        hnil | ⟨op, hop, hone⟩
      · rw [hnil, List.append_nil] at hagrees
        exact Or.inl hagrees
      · rw [hone] at hagrees
        exact Or.inr ⟨op, hop, hagrees⟩

def twoSlots : Config where
  slots := 512
  size := fun _ => 2
  size_le := fun _ => by decide
  size_le_slots := fun _ => by decide
  memory := fun _ => 0
  errno := fun _ => 0

def pushAndPop : List Label :=
  [Label.begin 1 ⟨0, 0⟩ (Request.push 7)] ++
    List.replicate 5 (Label.atom 1 ()) ++
    [Label.begin 2 ⟨-1, 0⟩ Request.pop, Label.atom 1 (), Label.atom 2 (),
      Label.finish 1] ++
    List.replicate 3 (Label.atom 2 ()) ++ [Label.kill 2]

theorem old_order_push_and_pop :
    exists s, run (step twoSlots) twoSlots.start pushAndPop = some s ∧
      Lifo.replay [] ((order twoSlots pushAndPop).map Prod.snd) =
        some (content s.kernel.memory (s.kernel.val Sem.count)) := by
  have hsome : (run (step twoSlots) twoSlots.start pushAndPop).isSome = true := by
    decide +kernel
  rcases Option.isSome_iff_exists.mp hsome with ⟨s, hrun⟩
  exact ⟨s, hrun, (old_order (by decide) hrun).left⟩

end StackOld
end UnixPrograms
