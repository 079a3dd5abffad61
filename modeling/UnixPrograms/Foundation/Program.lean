import Mathlib.Data.Option.Basic

/-!
# Programs over atomic operations

A process is modelled by the tree of operations it may still perform.  Each
node asks its environment for one atomic operation and continues with the
answer, so that an interleaving of several processes is an order in which
their nodes are taken.  Sequential code is written with `do` notation, and
the tree of such code unfolds by the three bind equations below.
-/

namespace UnixPrograms
namespace Foundation

/-- The operations a process may still perform before it delivers a value. -/
inductive Program (Op : Type) (Res : Op -> Type) (Halt alpha : Type) where
  /-- The code has delivered its value. -/
  | ret (value : alpha)
  /-- The whole process has ended inside the code. -/
  | halt (reason : Halt)
  /-- One atomic operation, followed by what its answer selects. -/
  | call (op : Op) (next : Res op -> Program Op Res Halt alpha)

namespace Program

variable {Op : Type} {Res : Op -> Type} {Halt alpha beta gamma state : Type}

def bind (first : Program Op Res Halt alpha)
    (rest : alpha -> Program Op Res Halt beta) : Program Op Res Halt beta :=
  match first with
  | ret value => rest value
  | halt reason => halt reason
  | call op next => call op (fun answer => bind (next answer) rest)

instance : Monad (Program Op Res Halt) where
  pure := ret
  bind := bind

def ask (op : Op) : Program Op Res Halt (Res op) :=
  call op ret

@[simp] theorem pure_eq_ret (value : alpha) :
    (pure value : Program Op Res Halt alpha) = ret value := rfl

@[simp] theorem ret_bind (value : alpha)
    (rest : alpha -> Program Op Res Halt beta) :
    (ret value >>= rest) = rest value := rfl

@[simp] theorem halt_bind (reason : Halt)
    (rest : alpha -> Program Op Res Halt beta) :
    ((halt reason : Program Op Res Halt alpha) >>= rest) = halt reason := rfl

@[simp] theorem call_bind (op : Op)
    (next : Res op -> Program Op Res Halt alpha)
    (rest : alpha -> Program Op Res Halt beta) :
    (call op next >>= rest) = call op (fun answer => next answer >>= rest) := rfl

theorem ite_bind (condition : Prop) [Decidable condition]
    (yes no : Program Op Res Halt alpha)
    (rest : alpha -> Program Op Res Halt beta) :
    ((if condition then yes else no) >>= rest) =
      if condition then yes >>= rest else no >>= rest := by
  by_cases h : condition
  · rw [if_pos h, if_pos h]
  · rw [if_neg h, if_neg h]

theorem bind_ret (first : Program Op Res Halt alpha) :
    (first >>= ret) = first := by
  induction first with
  | ret value => rfl
  | halt reason => rfl
  | call op next ih =>
      rw [call_bind]
      congr 1
      funext answer
      exact ih answer

theorem bind_assoc (first : Program Op Res Halt alpha)
    (second : alpha -> Program Op Res Halt beta)
    (third : beta -> Program Op Res Halt gamma) :
    ((first >>= second) >>= third) =
      (first >>= fun value => second value >>= third) := by
  induction first with
  | ret value => rfl
  | halt reason => rfl
  | call op next ih =>
      simp only [call_bind]
      congr 1
      funext answer
      exact ih answer

/-!
## One step and a whole solo run

`exec` is the environment: it answers an operation and moves to its next
state, or refuses because the operation blocks.
-/

def step (exec : (op : Op) -> state -> Option (Res op × state)) :
    Program Op Res Halt alpha -> state ->
      Option (Program Op Res Halt alpha × state)
  | ret _, _ => none
  | halt _, _ => none
  | call op next, s =>
      (exec op s).map (fun answered => (next answered.1, answered.2))

theorem step_call_eq_some {exec : (op : Op) -> state -> Option (Res op × state)}
    {op : Op} {next : Res op -> Program Op Res Halt alpha} {s s' : state}
    {rest : Program Op Res Halt alpha}
    (h : step exec (call op next) s = some (rest, s')) :
    exists answer, exec op s = some (answer, s') ∧ rest = next answer := by
  rcases Option.map_eq_some_iff.mp h with ⟨⟨answer, after⟩, hexec, heq⟩
  injection heq with hrest hafter
  subst hafter
  exact ⟨answer, hexec, hrest.symm⟩

def eval (exec : (op : Op) -> state -> Option (Res op × state)) :
    Program Op Res Halt alpha -> state -> Option (Except Halt alpha × state)
  | ret value, s => some (Except.ok value, s)
  | halt reason, s => some (Except.error reason, s)
  | call op next, s =>
      match exec op s with
      | none => none
      | some (answer, s') => eval exec (next answer) s'

@[simp] theorem eval_ret
    (exec : (op : Op) -> state -> Option (Res op × state))
    (value : alpha) (s : state) :
    eval exec (ret value : Program Op Res Halt alpha) s =
      some (Except.ok value, s) := rfl

theorem eval_call {exec : (op : Op) -> state -> Option (Res op × state)}
    {op : Op} {answer : Res op} {s s' : state}
    (next : Res op -> Program Op Res Halt alpha)
    (h : exec op s = some (answer, s')) :
    eval exec (call op next) s = eval exec (next answer) s' := by
  simp only [eval, h]

theorem eval_call_eq_some {exec : (op : Op) -> state -> Option (Res op × state)}
    {op : Op} {next : Res op -> Program Op Res Halt alpha} {s : state}
    {result : Except Halt alpha × state}
    (h : eval exec (call op next) s = some result) :
    exists answer s', exec op s = some (answer, s') ∧
      eval exec (next answer) s' = some result := by
  cases hexec : exec op s with
  | none =>
      simp only [eval, hexec] at h
      cases h
  | some answered =>
      simp only [eval, hexec] at h
      exact ⟨answered.1, answered.2, rfl, h⟩

theorem eval_invariant {exec : (op : Op) -> state -> Option (Res op × state)}
    (Inv : state -> Prop)
    (hkeep : forall op s answer s', Inv s -> exec op s = some (answer, s') ->
      Inv s')
    {code : Program Op Res Halt alpha} {s s' : state}
    {result : Except Halt alpha} (hs : Inv s)
    (hrun : eval exec code s = some (result, s')) : Inv s' := by
  induction code generalizing s with
  | ret value =>
      cases hrun
      exact hs
  | halt reason =>
      cases hrun
      exact hs
  | call op next ih =>
      rcases eval_call_eq_some hrun with ⟨answer, mid, hexec, hrest⟩
      exact ih answer (hkeep op s answer mid hs hexec) hrest

theorem eval_bind (exec : (op : Op) -> state -> Option (Res op × state))
    (first : Program Op Res Halt alpha)
    (rest : alpha -> Program Op Res Halt beta) (s : state) :
    eval exec (first >>= rest) s =
      match eval exec first s with
      | none => none
      | some (Except.ok value, s') => eval exec (rest value) s'
      | some (Except.error reason, s') => some (Except.error reason, s') := by
  induction first generalizing s with
  | ret value => rfl
  | halt reason => rfl
  | call op next ih =>
      rw [call_bind]
      simp only [eval]
      cases hexec : exec op s with
      | none => rfl
      | some answered => exact ih answered.1 answered.2

def nextOp : Program Op Res Halt alpha -> Option Op
  | ret _ => none
  | halt _ => none
  | call op _ => some op

@[simp] theorem nextOp_call (op : Op)
    (next : Res op -> Program Op Res Halt alpha) :
    nextOp (call op next) = some op := rfl

/-- The end of the body of a loop: the loop goes on with the body, or it has
ended. -/
def again (condition : alpha -> Bool) (body : alpha -> Program Op Res Halt alpha) :
    Program Op Res Halt alpha -> Program Op Res Halt alpha
  | ret value => if condition value = true then body value else ret value
  | halt reason => halt reason
  | call op next => call op next

end Program

end Foundation
end UnixPrograms
