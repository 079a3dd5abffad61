import UnixPrograms.Foundation.Contract

/-!
# Programs with more operations

A language of operations is extended by some more.  A program of the smaller
language is one of the larger, and a program of the larger language is one of
the smaller when each additional operation has an answer of its own.
-/

namespace UnixPrograms
namespace Foundation

def Answers {Op Ext : Type} (Res : Op -> Type) (More : Ext -> Type) :
    Op ⊕ Ext -> Type
  | Sum.inl op => Res op
  | Sum.inr op => More op

namespace Program

variable {Op Ext : Type} {Res : Op -> Type} {More : Ext -> Type}
  {Halt alpha beta state : Type}

abbrev Extended (Op Ext : Type) (Res : Op -> Type) (More : Ext -> Type)
    (Halt alpha : Type) :=
  Program (Op ⊕ Ext) (Answers Res More) Halt alpha

def embed : Program Op Res Halt alpha -> Extended Op Ext Res More Halt alpha
  | ret value => ret value
  | halt reason => halt reason
  | call op next => call (Sum.inl op) (fun answer => embed (next answer))

def askMore (op : Ext) : Extended Op Ext Res More Halt (More op) :=
  call (Sum.inr op) ret

/-- The program in which the additional operations are answered so. -/
def settle (answer : (op : Ext) -> More op) :
    Extended Op Ext Res More Halt alpha -> Program Op Res Halt alpha
  | ret value => ret value
  | halt reason => halt reason
  | call (Sum.inl op) next => call op (fun given => settle answer (next given))
  | call (Sum.inr op) next => settle answer (next (answer op))

section Settle

variable (answer : (op : Ext) -> More op)

@[simp] theorem settle_ret (value : alpha) :
    settle answer (ret value : Extended Op Ext Res More Halt alpha) =
      ret value := rfl

@[simp] theorem settle_halt (reason : Halt) :
    settle answer (halt reason : Extended Op Ext Res More Halt alpha) =
      halt reason := rfl

@[simp] theorem settle_askMore (op : Ext) :
    settle answer (askMore op : Extended Op Ext Res More Halt (More op)) =
      ret (answer op) := rfl

@[simp] theorem settle_bind (first : Extended Op Ext Res More Halt alpha)
    (rest : alpha -> Extended Op Ext Res More Halt beta) :
    settle answer (first >>= rest) =
      (settle answer first >>= fun value => settle answer (rest value)) := by
  induction first with
  | ret value => rfl
  | halt reason => rfl
  | call op next ih =>
      cases op with
      | inl op =>
          rw [call_bind]
          simp only [settle, call_bind]
          congr 1
          funext given
          exact ih given
      | inr op => exact ih (answer op)

@[simp] theorem settle_embed (code : Program Op Res Halt alpha) :
    settle answer (embed code) = code := by
  induction code with
  | ret value => rfl
  | halt reason => rfl
  | call op next ih =>
      simp only [embed, settle]
      congr 1
      funext given
      exact ih given

theorem settle_ite (condition : Prop) [Decidable condition]
    (yes no : Extended Op Ext Res More Halt alpha) :
    settle answer (if condition then yes else no) =
      if condition then settle answer yes else settle answer no := by
  split
  · rfl
  · rfl

end Settle

/-- What a contract says about the smaller language. -/
def restrict (contract : Contract (Op ⊕ Ext) (Answers Res More) state) :
    Contract Op Res state where
  needs := fun op s => contract.needs (Sum.inl op) s
  does := fun op s given s' => contract.does (Sum.inl op) s given s'

theorem Ensures.embed
    {contract : Contract (Op ⊕ Ext) (Answers Res More) state}
    {stopped : state -> Halt -> Prop} {post : state -> alpha -> Prop}
    {code : Program Op Res Halt alpha} {s : state}
    (h : Ensures (restrict contract) stopped post s code) :
    Ensures contract stopped post s (embed code) := by
  induction code generalizing s with
  | ret value => exact h
  | halt reason => exact h
  | call op next ih =>
      constructor
      · exact h.left
      · intro given s' hdoes
        exact ih given (h.right given s' hdoes)

end Program

end Foundation
end UnixPrograms
