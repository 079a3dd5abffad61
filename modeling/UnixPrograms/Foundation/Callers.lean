import UnixPrograms.Foundation.Program
import Mathlib.Logic.Function.Basic

/-!
# Processes that make calls

Any number of processes share one kernel, and each makes one call after the
other.  A call is a program over the operations of the kernel, and a lock may
be taken and given back inside it.  A label names the process that acts, so a
list of labels is one interleaving of the atomic steps of the calls.
-/

namespace UnixPrograms
namespace Foundation

/-- Where a process is.  `locked` records that the running call has taken the
lock and not given it back; a dead process keeps the call it died in. -/
inductive CallStatus (Mode Call Code : Type) where
  | idle
  | running (mode : Mode) (call : Call) (code : Code) (locked : Bool)
  | dead (call : Option Call)

namespace CallStatus

variable {Mode Call Code : Type}

def call : CallStatus Mode Call Code -> Option Call
  | idle => none
  | running _ call _ _ => some call
  | dead call => call

def locked : CallStatus Mode Call Code -> Bool
  | running _ _ _ locked => locked
  | _ => false

def alive : CallStatus Mode Call Code -> Bool
  | dead _ => false
  | _ => true

def nextOp {Op : Type} {Res : Op -> Type} {Exit Outcome : Type} :
    CallStatus Mode Call (Program Op Res Exit Outcome) -> Option Op
  | running _ _ code _ => code.nextOp
  | _ => none

end CallStatus

structure CallState (Pid Kernel Mode Call Outcome Code : Type) where
  kernel : Kernel
  status : Pid -> CallStatus Mode Call Code
  returned : Pid -> List (Call × Outcome)

/-- One step of the interleaving.  `atom` is one operation of the running call,
with what the kernel is free to choose in it. -/
inductive CallLabel (Pid Mode Call Choice : Type) where
  | begin (p : Pid) (mode : Mode) (call : Call)
  | atom (p : Pid) (choice : Choice)
  | finish (p : Pid)
  | kill (p : Pid)

def CallLabel.actor {Pid Mode Call Choice : Type} :
    CallLabel Pid Mode Call Choice -> Pid
  | begin p _ _ => p
  | atom p _ => p
  | finish p => p
  | kill p => p

/-- What the processes run and on what: the code of the calls, what a process
needs and changes to begin one, the kernel's operations, which of them take
and give back the lock, and what the kernel does when a process ends. -/
structure Callers (Pid Kernel Mode Call Outcome Exit Choice : Type) {Op : Type}
    (Res : Op -> Type) where
  code : Pid -> Mode -> Call -> Program Op Res Exit Outcome
  enter : Pid -> Mode -> Kernel -> Option Kernel
  exec : Choice -> Pid -> (op : Op) -> Kernel -> Option (Res op × Kernel)
  lockedAfter : Bool -> (op : Op) -> Res op -> Bool
  exit : Pid -> Kernel -> Kernel

section State

variable {Pid Kernel Mode Call Outcome Code : Type} [DecidableEq Pid]

def CallState.setStatus (s : CallState Pid Kernel Mode Call Outcome Code)
    (p : Pid) (status : CallStatus Mode Call Code) :
    CallState Pid Kernel Mode Call Outcome Code :=
  { s with status := Function.update s.status p status }

end State

namespace Callers

variable {Pid Kernel Mode Call Outcome Exit Choice Op : Type}
  {Res : Op -> Type} [DecidableEq Pid]

abbrev State (_ : Callers Pid Kernel Mode Call Outcome Exit Choice Res) :=
  CallState Pid Kernel Mode Call Outcome (Program Op Res Exit Outcome)

def die (sys : Callers Pid Kernel Mode Call Outcome Exit Choice Res)
    (s : sys.State) (p : Pid) (call : Option Call) : sys.State :=
  { s.setStatus p (CallStatus.dead call) with kernel := sys.exit p s.kernel }

def step (sys : Callers Pid Kernel Mode Call Outcome Exit Choice Res)
    (s : sys.State) : CallLabel Pid Mode Call Choice -> Option sys.State
  | CallLabel.begin p mode call =>
      match s.status p with
      | CallStatus.idle =>
          match sys.enter p mode s.kernel with
          | none => none
          | some kernel =>
              some
                { s.setStatus p
                    (CallStatus.running mode call (sys.code p mode call)
                      false) with
                  kernel := kernel }
      | _ => none
  | CallLabel.atom p choice =>
      match s.status p with
      | CallStatus.running mode call code locked =>
          match code with
          | Program.ret _ => none
          | Program.halt _ => some (sys.die s p (some call))
          | Program.call op next =>
              match sys.exec choice p op s.kernel with
              | none => none
              | some (answer, kernel) =>
                  some
                    { s.setStatus p
                        (CallStatus.running mode call (next answer)
                          (sys.lockedAfter locked op answer)) with
                      kernel := kernel }
      | _ => none
  | CallLabel.finish p =>
      match s.status p with
      | CallStatus.running _ call code _ =>
          match code with
          | Program.ret outcome =>
              some
                { s.setStatus p CallStatus.idle with
                  returned :=
                    Function.update s.returned p
                      (s.returned p ++ [(call, outcome)]) }
          | _ => none
      | _ => none
  | CallLabel.kill p =>
      match s.status p with
      | CallStatus.dead _ => none
      | status => some (sys.die s p status.call)

variable {sys : Callers Pid Kernel Mode Call Outcome Exit Choice Res}

inductive Step (sys : Callers Pid Kernel Mode Call Outcome Exit Choice Res)
    (s : sys.State) : CallLabel Pid Mode Call Choice -> sys.State -> Prop where
  | begins {p : Pid} {mode : Mode} {call : Call} {kernel : Kernel} :
      s.status p = CallStatus.idle ->
      sys.enter p mode s.kernel = some kernel ->
      Step sys s (CallLabel.begin p mode call)
        { s.setStatus p
            (CallStatus.running mode call (sys.code p mode call) false) with
          kernel := kernel }
  | operates {p : Pid} {choice : Choice} {mode : Mode} {call : Call} {op : Op}
      {next : Res op -> Program Op Res Exit Outcome} {locked : Bool}
      {answer : Res op} {kernel : Kernel} :
      s.status p =
        CallStatus.running mode call (Program.call op next) locked ->
      sys.exec choice p op s.kernel = some (answer, kernel) ->
      Step sys s (CallLabel.atom p choice)
        { s.setStatus p
            (CallStatus.running mode call (next answer)
              (sys.lockedAfter locked op answer)) with
          kernel := kernel }
  | halts {p : Pid} {choice : Choice} {mode : Mode} {call : Call}
      {reason : Exit} {locked : Bool} :
      s.status p =
        CallStatus.running mode call (Program.halt reason) locked ->
      Step sys s (CallLabel.atom p choice) (sys.die s p (some call))
  | finishes {p : Pid} {mode : Mode} {call : Call} {outcome : Outcome}
      {locked : Bool} :
      s.status p =
        CallStatus.running mode call (Program.ret outcome) locked ->
      Step sys s (CallLabel.finish p)
        { s.setStatus p CallStatus.idle with
          returned :=
            Function.update s.returned p (s.returned p ++ [(call, outcome)]) }
  | killed {p : Pid} :
      (s.status p).alive = true ->
      Step sys s (CallLabel.kill p) (sys.die s p (s.status p).call)

theorem step_kill {s : sys.State} {p : Pid}
    (halive : (s.status p).alive = true) :
    sys.step s (CallLabel.kill p) =
      some (sys.die s p (s.status p).call) := by
  cases hstatus : s.status p with
  | dead call =>
      rw [hstatus] at halive
      cases halive
  | _ => simp only [step, hstatus]

theorem Step.of_step {s t : sys.State} {l : CallLabel Pid Mode Call Choice}
    (h : sys.step s l = some t) : Step sys s l t := by
  cases l with
  | begin p mode call =>
      simp only [step] at h
      split at h
      case h_1 hidle =>
        split at h
        case h_1 _ => cases h
        case h_2 kernel henter =>
          cases h
          exact Step.begins hidle henter
      case h_2 _ => cases h
  | atom p choice =>
      simp only [step] at h
      split at h
      case h_1 mode call code locked hrunning =>
        cases code with
        | ret outcome => cases h
        | halt reason =>
            cases h
            exact Step.halts hrunning
        | call op next =>
            simp only at h
            split at h
            case h_1 _ => cases h
            case h_2 answer kernel hexec =>
              cases h
              exact Step.operates hrunning hexec
      case h_2 _ => cases h
  | finish p =>
      simp only [step] at h
      split at h
      case h_1 mode call code locked hrunning =>
        cases code with
        | ret outcome =>
            cases h
            exact Step.finishes hrunning
        | halt reason => cases h
        | call op next => cases h
      case h_2 _ => cases h
  | kill p =>
      have halive : (s.status p).alive = true := by
        cases hstatus : s.status p with
        | dead call =>
            simp only [step, hstatus] at h
            cases h
        | _ => rfl
      rw [step_kill halive] at h
      cases h
      exact Step.killed halive

theorem Step.step_eq {s t : sys.State} {l : CallLabel Pid Mode Call Choice}
    (h : Step sys s l t) : sys.step s l = some t := by
  cases h with
  | begins hidle henter => simp only [step, hidle, henter]
  | operates hrunning hexec => simp only [step, hrunning, hexec]
  | halts hrunning => simp only [step, hrunning]
  | finishes hrunning => simp only [step, hrunning]
  | killed halive => exact step_kill halive

theorem Step.others {s t : sys.State} {l : CallLabel Pid Mode Call Choice}
    {q : Pid} (h : Step sys s l t) (hq : q ≠ l.actor) :
    t.status q = s.status q ∧ t.returned q = s.returned q := by
  cases h with
  | begins hidle henter => exact ⟨Function.update_of_ne hq _ _, rfl⟩
  | operates hrunning hexec => exact ⟨Function.update_of_ne hq _ _, rfl⟩
  | halts hrunning => exact ⟨Function.update_of_ne hq _ _, rfl⟩
  | finishes hrunning =>
      exact ⟨Function.update_of_ne hq _ _, Function.update_of_ne hq _ _⟩
  | killed halive => exact ⟨Function.update_of_ne hq _ _, rfl⟩

end Callers

end Foundation
end UnixPrograms
