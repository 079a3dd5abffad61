import UnixPrograms.Foundation.Program

/-!
# Contracts of programs

The operations of a program are described by what they need of the state, by
the answers they may give and by the states they may leave.  `Ensures` says
that the program meets what its operations need and ends as promised, whatever
the answers are; the rule for sequential code is the one of a weakest
precondition.
-/

namespace UnixPrograms
namespace Foundation

structure Contract (Op : Type) (Res : Op -> Type) (state : Type) where
  needs : Op -> state -> Prop
  does : (op : Op) -> state -> Res op -> state -> Prop

def Contract.unknown (Op : Type) (Res : Op -> Type) (state : Type) :
    Contract Op Res state where
  needs := fun _ _ => True
  does := fun _ _ _ _ => True

namespace Program

variable {Op : Type} {Res : Op -> Type} {Halt alpha beta state : Type}

/-- Every way through the program ends in a value with `post` or stops with
`stopped`, and each operation on it finds what it needs. -/
def Ensures (contract : Contract Op Res state)
    (stopped : state -> Halt -> Prop) (post : state -> alpha -> Prop) :
    state -> Program Op Res Halt alpha -> Prop
  | s, ret value => post s value
  | s, halt reason => stopped s reason
  | s, call op next =>
      contract.needs op s ∧
        forall answer s', contract.does op s answer s' ->
          Ensures contract stopped post s' (next answer)

namespace Ensures

variable {contract : Contract Op Res state} {stopped : state -> Halt -> Prop}

theorem bind {post : state -> beta -> Prop}
    {first : Program Op Res Halt alpha}
    {rest : alpha -> Program Op Res Halt beta} {s : state}
    (h : Ensures contract stopped
      (fun s value => Ensures contract stopped post s (rest value)) s first) :
    Ensures contract stopped post s (first >>= rest) := by
  induction first generalizing s with
  | ret value => exact h
  | halt reason => exact h
  | call op next ih =>
      constructor
      · exact h.left
      · intro answer s' hdoes
        exact ih answer (h.right answer s' hdoes)

theorem mono {post weaker : state -> alpha -> Prop}
    {code : Program Op Res Halt alpha} {s : state}
    (h : Ensures contract stopped post s code)
    (himp : forall s value, post s value -> weaker s value) :
    Ensures contract stopped weaker s code := by
  induction code generalizing s with
  | ret value => exact himp s value h
  | halt reason => exact h
  | call op next ih =>
      constructor
      · exact h.left
      · intro answer s' hdoes
        exact ih answer (h.right answer s' hdoes)

theorem seq {middle : state -> alpha -> Prop} {post : state -> beta -> Prop}
    {first : Program Op Res Halt alpha}
    {rest : alpha -> Program Op Res Halt beta} {s : state}
    (h : Ensures contract stopped middle s first)
    (hrest : forall s value, middle s value ->
      Ensures contract stopped post s (rest value)) :
    Ensures contract stopped post s (first >>= rest) := by
  apply bind
  apply mono h
  intro s value hmiddle
  exact hrest s value hmiddle

theorem ite {post : state -> alpha -> Prop} {condition : Prop}
    [Decidable condition] {yes no : Program Op Res Halt alpha} {s : state}
    (hyes : condition -> Ensures contract stopped post s yes)
    (hno : ¬ condition -> Ensures contract stopped post s no) :
    Ensures contract stopped post s (if condition then yes else no) := by
  split
  · rename_i h
    exact hyes h
  · rename_i h
    exact hno h

theorem unknown (code : Program Op Res Halt alpha) (s : state) :
    Ensures (Contract.unknown Op Res state) (fun _ _ => True)
      (fun _ _ => True) s code := by
  induction code generalizing s with
  | ret value => exact trivial
  | halt reason => exact trivial
  | call op next ih => exact ⟨trivial, fun answer s' _ => ih answer s'⟩

/-- Adequacy for a run with nobody else acting. -/
theorem eval {post : state -> alpha -> Prop}
    {exec : (op : Op) -> state -> Option (Res op × state)}
    (hdoes : forall op s answer s', contract.needs op s ->
      exec op s = some (answer, s') -> contract.does op s answer s')
    {code : Program Op Res Halt alpha} {s s' : state}
    {result : Except Halt alpha} (h : Ensures contract stopped post s code)
    (hrun : code.eval exec s = some (result, s')) :
    (forall value, result = Except.ok value -> post s' value) ∧
      forall reason, result = Except.error reason -> stopped s' reason := by
  induction code generalizing s with
  | ret value =>
      cases hrun
      constructor
      · intro value' heq
        cases heq
        exact h
      · intro reason heq
        cases heq
  | halt reason =>
      cases hrun
      constructor
      · intro value heq
        cases heq
      · intro reason' heq
        cases heq
        exact h
  | call op next ih =>
      cases hexec : exec op s with
      | none =>
          simp only [Program.eval, hexec] at hrun
          cases hrun
      | some answered =>
          simp only [Program.eval, hexec] at hrun
          exact ih answered.1
            (h.right answered.1 answered.2 (hdoes op s _ _ h.left hexec)) hrun

end Ensures

end Program

end Foundation
end UnixPrograms
