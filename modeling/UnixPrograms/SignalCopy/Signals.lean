import Mathlib.Logic.Function.Basic
import UnixPrograms.Foundation.Program
import UnixPrograms.Foundation.CString

/-!
# Signals between processes

Standard signals, all of them blocked: a process has at most one pending
signal of each number, a further one is merged into it, and `sigwaitinfo`
takes one of the pending signals in its set.
-/

namespace UnixPrograms
namespace SignalCopy

open Foundation

abbrev Pid := Nat

inductive Signal where
  | sigStop
  | sigGet0
  | sigGet1
  | sigContinue
  | sigFinish
deriving DecidableEq, Repr

def Signal.number : Signal -> Nat
  | Signal.sigStop => 2
  | Signal.sigGet0 => 10
  | Signal.sigGet1 => 12
  | Signal.sigContinue => 14
  | Signal.sigFinish => 15

structure SigInfo where
  signal : Signal
  siPid : Pid
deriving DecidableEq

inductive Op where
  | kill (pid : Pid) (signal : Signal)
  | sigwaitinfo (set : List Signal)
  | write (sym : UInt8)

abbrev Op.Res : Op -> Type
  | Op.kill _ _ => Unit
  | Op.sigwaitinfo _ => SigInfo
  | Op.write _ => Unit

/-- Each pending signal with the process that sent it first, and what has been
written to the receiver's file. -/
structure Kernel where
  pending : Pid -> Signal -> Option Pid
  written : Bytes

namespace Kernel

def kill (k : Kernel) (sender target : Pid) (signal : Signal) : Kernel :=
  match k.pending target signal with
  | some _ => k
  | none =>
      { k with
        pending :=
          Function.update k.pending target
            (Function.update (k.pending target) signal (some sender)) }

def take (k : Kernel) (p : Pid) (signal : Signal) : Kernel :=
  { k with
    pending :=
      Function.update k.pending p
        (Function.update (k.pending p) signal none) }

def waiting (k : Kernel) (p : Pid) (set : List Signal) : List Signal :=
  set.filter (fun signal => (k.pending p signal).isSome)

/-- One operation of a process.  `choose` is the order in which pending
signals are taken; with none pending `sigwaitinfo` blocks. -/
def exec (choose : List Signal -> Option Signal) (p : Pid) :
    (op : Op) -> Kernel -> Option (op.Res × Kernel)
  | Op.kill target signal, k => some ((), k.kill p target signal)
  | Op.sigwaitinfo set, k =>
      match choose (k.waiting p set) with
      | none => none
      | some signal =>
          match k.pending p signal with
          | none => none
          | some siPid =>
              some ({ signal := signal, siPid := siPid }, k.take p signal)
  | Op.write sym, k => some ((), { k with written := k.written ++ [sym] })

end Kernel

def ascending : List Signal :=
  [Signal.sigStop, Signal.sigGet0, Signal.sigGet1, Signal.sigContinue,
    Signal.sigFinish]

/-- The order of POSIX: the lowest number first. -/
def lowest (signals : List Signal) : Option Signal :=
  ascending.find? (fun signal => decide (signal ∈ signals))

/-!
## What single operations do
-/

theorem update_pending (pending : Pid -> Signal -> Option Pid) (q p : Pid)
    (signal sig : Signal) (value : Option Pid) :
    Function.update pending q (Function.update (pending q) signal value) p sig =
      if p = q ∧ sig = signal then value else pending p sig := by
  by_cases hp : p = q
  · by_cases hsig : sig = signal
    · rw [if_pos ⟨hp, hsig⟩, hp, hsig, Function.update_self,
        Function.update_self]
    · rw [if_neg (fun h => hsig h.right), hp, Function.update_self,
        Function.update_of_ne hsig]
  · rw [if_neg (fun h => hp h.left), Function.update_of_ne hp]

theorem pending_kill (k : Kernel) (sender target p : Pid) (signal sig : Signal) :
    (k.kill sender target signal).pending p sig =
      if p = target ∧ sig = signal then some ((k.pending target signal).getD sender)
      else k.pending p sig := by
  cases hpending : k.pending target signal with
  | some first =>
      simp only [Kernel.kill, hpending, Option.getD_some]
      by_cases h : p = target ∧ sig = signal
      · rw [if_pos h, h.left, h.right, hpending]
      · rw [if_neg h]
  | none =>
      simp only [Kernel.kill, hpending, Option.getD_none]
      exact update_pending k.pending target p signal sig (some sender)

theorem pending_kill_other (k : Kernel) {sender target p : Pid}
    (signal sig : Signal) (hne : p ≠ target) :
    (k.kill sender target signal).pending p sig = k.pending p sig := by
  rw [pending_kill, if_neg (fun h => hne h.left)]

theorem pending_of_kill {k : Kernel} {sender target p q : Pid}
    {signal sig : Signal}
    (h : (k.kill sender target signal).pending p sig = some q) :
    k.pending p sig = some q ∨ sig = signal ∧ q = sender := by
  rw [pending_kill] at h
  split at h
  case isTrue heq =>
    injection h with hq
    cases hbefore : k.pending target signal with
    | none =>
        rw [hbefore] at hq
        exact Or.inr ⟨heq.right, hq.symm⟩
    | some first =>
        rw [hbefore] at hq
        rw [heq.left, heq.right, hbefore, ← hq]
        exact Or.inl rfl
  case isFalse _ => exact Or.inl h

theorem pending_kill_of_pending {k : Kernel} {sender target p q : Pid}
    {signal sig : Signal} (h : k.pending p sig = some q) :
    (k.kill sender target signal).pending p sig = some q := by
  rw [pending_kill]
  split
  case isTrue heq =>
    rw [heq.left, heq.right] at h
    rw [h]
    rfl
  case isFalse _ => exact h

@[simp] theorem written_kill (k : Kernel) (sender target : Pid) (signal : Signal) :
    (k.kill sender target signal).written = k.written := by
  cases hpending : k.pending target signal with
  | some first => simp only [Kernel.kill, hpending]
  | none => simp only [Kernel.kill, hpending]

theorem pending_take (k : Kernel) (q p : Pid) (signal sig : Signal) :
    (k.take q signal).pending p sig =
      if p = q ∧ sig = signal then none else k.pending p sig :=
  update_pending k.pending q p signal sig none

theorem pending_take_other (k : Kernel) {q p : Pid} (signal sig : Signal)
    (hne : p ≠ q) : (k.take q signal).pending p sig = k.pending p sig := by
  rw [pending_take, if_neg (fun h => hne h.left)]

theorem take_pending {k : Kernel} {p p' q : Pid} {signal sig : Signal}
    (h : (k.take p signal).pending p' sig = some q) :
    k.pending p' sig = some q := by
  rw [pending_take] at h
  split at h
  · cases h
  · exact h

theorem take_only {k : Kernel} {p q : Pid} {signal : Signal}
    (h : forall sig, k.pending p sig = if sig = signal then some q else none)
    (sig : Signal) : (k.take p signal).pending p sig = none := by
  rw [pending_take, h]
  split
  case isTrue _ => rfl
  case isFalse hother => exact if_neg (fun heq => hother ⟨rfl, heq⟩)

@[simp] theorem written_take (k : Kernel) (p : Pid) (signal : Signal) :
    (k.take p signal).written = k.written := rfl

theorem mem_waiting {k : Kernel} {p : Pid} {set : List Signal}
    {signal : Signal} :
    signal ∈ k.waiting p set <->
      signal ∈ set ∧ (k.pending p signal).isSome = true :=
  List.mem_filter

theorem ascending_pairwise :
    ascending.Pairwise (fun first second => first.number < second.number) := by
  decide

theorem mem_ascending (signal : Signal) : signal ∈ ascending := by
  cases signal <;> decide

theorem lowest_eq_some {signals : List Signal} {signal : Signal}
    (h : lowest signals = some signal) :
    signal ∈ signals ∧
      forall sig, sig ∈ signals -> signal.number ≤ sig.number := by
  rcases List.find?_eq_some_iff_append.mp h with
    ⟨hmem, before, after, hsplit, hbefore⟩
  refine ⟨by simpa using hmem, ?_⟩
  intro sig hsig
  have hall := mem_ascending sig
  have hpairwise := ascending_pairwise
  rw [hsplit] at hall hpairwise
  rcases List.mem_append.mp hall with hearlier | hlater
  · have hno := hbefore sig hearlier
    simp [hsig] at hno
  · rcases List.mem_cons.mp hlater with heq | hafter
    · rw [heq]
    · have hrest := (List.pairwise_append.mp hpairwise).right.left
      exact Nat.le_of_lt ((List.pairwise_cons.mp hrest).left sig hafter)

theorem exec_sigwaitinfo {k k' : Kernel} {p : Pid} {set : List Signal}
    {info : SigInfo}
    (h : k.exec lowest p (Op.sigwaitinfo set) = some (info, k')) :
    info.signal ∈ set ∧ k.pending p info.signal = some info.siPid ∧
      k' = k.take p info.signal ∧
      forall sig, sig ∈ set -> sig.number < info.signal.number ->
        k.pending p sig = none := by
  cases hchoose : lowest (k.waiting p set) with
  | none =>
      simp only [Kernel.exec, hchoose] at h
      cases h
  | some signal =>
      rcases lowest_eq_some hchoose with ⟨hmem, hleast⟩
      cases hpending : k.pending p signal with
      | none =>
          simp only [Kernel.exec, hchoose, hpending] at h
          cases h
      | some siPid =>
          simp only [Kernel.exec, hchoose, hpending] at h
          cases h
          refine ⟨(mem_waiting.mp hmem).left, hpending, rfl, ?_⟩
          intro sig hsig hlt
          cases hother : k.pending p sig with
          | none => rfl
          | some other =>
              have hwaits : sig ∈ k.waiting p set := by
                apply mem_waiting.mpr
                exact ⟨hsig, by rw [hother]; rfl⟩
              exact absurd (hleast sig hwaits) (Nat.not_le.mpr hlt)

end SignalCopy
end UnixPrograms
