import UnixPrograms.Foundation.Contract

/-!
# Annotated programs

Notes stand in a program between its operations and change nothing.  Without
its notes an annotated program is the program itself, and what a contract says
about all ways through it holds along every history.
-/

namespace UnixPrograms
namespace Foundation

def Noted {Op : Type} (Res : Op -> Type) (Note : Type) : Op ⊕ Note -> Type
  | Sum.inl op => Res op
  | Sum.inr _ => Unit

namespace Program

variable {Op Note : Type} {Res : Op -> Type} {Halt alpha beta : Type}

abbrev Annotated (Op Note : Type) (Res : Op -> Type) (Halt alpha : Type) :=
  Program (Op ⊕ Note) (Noted Res Note) Halt alpha

def note (n : Note) : Annotated Op Note Res Halt Unit :=
  call (Sum.inr n) (fun _ => ret ())

def annotate (notes : Op -> List Note) :
    Program Op Res Halt alpha -> Annotated Op Note Res Halt alpha
  | ret value => ret value
  | halt reason => halt reason
  | call op next =>
      (notes op).foldr (fun n rest => call (Sum.inr n) (fun _ => rest))
        (call (Sum.inl op) (fun answer => annotate notes (next answer)))

def erase : Annotated Op Note Res Halt alpha -> Program Op Res Halt alpha
  | ret value => ret value
  | halt reason => halt reason
  | call (Sum.inl op) next => call op (fun answer => erase (next answer))
  | call (Sum.inr _) next => erase (next ())

@[simp] theorem erase_ret (value : alpha) :
    erase (ret value : Annotated Op Note Res Halt alpha) = ret value := rfl

@[simp] theorem erase_halt (reason : Halt) :
    erase (halt reason : Annotated Op Note Res Halt alpha) = halt reason := rfl

@[simp] theorem erase_bind (first : Annotated Op Note Res Halt alpha)
    (rest : alpha -> Annotated Op Note Res Halt beta) :
    erase (first >>= rest) = (erase first >>= fun value => erase (rest value)) := by
  induction first with
  | ret value => rfl
  | halt reason => rfl
  | call op next ih =>
      cases op with
      | inl op =>
          rw [call_bind]
          simp only [erase, call_bind]
          congr 1
          funext answer
          exact ih answer
      | inr n => exact ih ()

@[simp] theorem erase_note (n : Note) :
    erase (note n : Annotated Op Note Res Halt Unit) = ret () := rfl

@[simp] theorem erase_annotate (notes : Op -> List Note)
    (code : Program Op Res Halt alpha) : erase (annotate notes code) = code := by
  induction code with
  | ret value => rfl
  | halt reason => rfl
  | call op next ih =>
      have hnotes : forall (list : List Note)
          (rest : Annotated Op Note Res Halt alpha),
          erase (list.foldr (fun n rest => call (Sum.inr n) (fun _ => rest))
            rest) = erase rest := by
        intro list rest
        induction list with
        | nil => rfl
        | cons n list ihlist => exact ihlist
      rw [annotate, hnotes, erase]
      congr 1
      funext answer
      exact ih answer

theorem annotate_bind (notes : Op -> List Note)
    (first : Program Op Res Halt alpha)
    (rest : alpha -> Program Op Res Halt beta) :
    annotate notes (first >>= rest) =
      (annotate notes first >>= fun value => annotate notes (rest value)) := by
  induction first with
  | ret value => rfl
  | halt reason => rfl
  | call op next ih =>
      rw [call_bind, annotate, annotate]
      induction notes op with
      | nil =>
          rw [List.foldr_nil, List.foldr_nil, call_bind]
          congr 1
          funext answer
          exact ih answer
      | cons n list ihlist =>
          rw [List.foldr_cons, List.foldr_cons, call_bind, ihlist]

theorem erase_ite (condition : Prop) [Decidable condition]
    (yes no : Annotated Op Note Res Halt alpha) :
    erase (if condition then yes else no) =
      if condition then erase yes else erase no := by
  by_cases h : condition
  · rw [if_pos h, if_pos h]
  · rw [if_neg h, if_neg h]

/-!
## Histories
-/

/-- A program can ask these operations one after the other, and be given these
answers. -/
def Follows : Program Op Res Halt alpha -> List (Sigma Res) -> Prop
  | _, [] => True
  | ret _, _ :: _ => False
  | halt _, _ :: _ => False
  | call op next, taken :: rest =>
      exists answer, taken = ⟨op, answer⟩ ∧ Follows (next answer) rest

theorem follows_nil (code : Program Op Res Halt alpha) : Follows code [] := by
  cases code <;> exact trivial

/-- Adequacy for histories of a contract whose states can be computed: as long
as the answers are as the contract has them, each operation finds what it needs
in the state that the ones before it have left. -/
theorem Ensures.along {state : Type} {contract : Contract Op Res state}
    {stopped : state -> Halt -> Prop} {post : state -> alpha -> Prop}
    (advance : Sigma Res -> state -> state) {code : Program Op Res Halt alpha}
    {s : state} {before after : List (Sigma Res)} {taken : Sigma Res}
    (h : Ensures contract stopped post s code)
    (hfollows : Follows code (before ++ taken :: after))
    (hdoes : forall earlier s, earlier ∈ before ->
      contract.does earlier.1 s earlier.2 (advance earlier s)) :
    contract.needs taken.1
      (before.foldl (fun s earlier => advance earlier s) s) := by
  induction before generalizing code s with
  | nil =>
      cases code with
      | ret value => exact absurd hfollows id
      | halt reason => exact absurd hfollows id
      | call op next =>
          rcases hfollows with ⟨answer, htaken, _⟩
          rw [htaken]
          exact h.left
  | cons first before ih =>
      cases code with
      | ret value => exact absurd hfollows id
      | halt reason => exact absurd hfollows id
      | call op next =>
          rcases hfollows with ⟨answer, hfirst, hrest⟩
          have hanswer := hdoes first s List.mem_cons_self
          rw [hfirst] at hanswer
          rw [List.foldl_cons, hfirst]
          exact ih (h.right answer _ hanswer) hrest
            (fun later s hlater =>
              hdoes later s (List.mem_cons_of_mem first hlater))

theorem Ensures.follows {contract : Contract Op Res Unit}
    {stopped : Unit -> Halt -> Prop} {post : Unit -> alpha -> Prop}
    {code : Program Op Res Halt alpha} {history : List (Sigma Res)}
    (h : Ensures contract stopped post () code)
    (hfollows : Follows code history)
    (hdoes : forall taken, taken ∈ history ->
      contract.does taken.1 () taken.2 ()) :
    forall taken, taken ∈ history -> contract.needs taken.1 () := by
  intro taken hmem
  rcases List.append_of_mem hmem with ⟨before, after, hsplit⟩
  rw [hsplit] at hfollows hdoes
  exact Ensures.along (fun _ _ => ()) h hfollows
    (fun earlier _ hearlier => hdoes earlier (List.mem_append_left _ hearlier))

def underNotes (contract : Contract (Op ⊕ Note) (Noted Res Note) Unit)
    (notes : Op -> List Note) : Contract Op Res Unit where
  needs := fun op s =>
    (forall n, n ∈ notes op -> contract.needs (Sum.inr n) s) ∧
      contract.needs (Sum.inl op) s
  does := fun op s answer s' => contract.does (Sum.inl op) s answer s'

theorem Ensures.annotated {contract : Contract (Op ⊕ Note) (Noted Res Note) Unit}
    {stopped : Unit -> Halt -> Prop} {post : Unit -> alpha -> Prop}
    {notes : Op -> List Note} {code : Program Op Res Halt alpha}
    (h : Ensures (underNotes contract notes) stopped post () code) :
    Ensures contract stopped post () (annotate notes code) := by
  induction code with
  | ret value => exact h
  | halt reason => exact h
  | call op next ih =>
      rcases h with ⟨⟨hnotes, hop⟩, hnext⟩
      have hcall : Ensures contract stopped post ()
          (call (Sum.inl op) (fun answer => annotate notes (next answer)) :
            Annotated Op Note Res Halt alpha) :=
        ⟨hop, fun answer s' hdoes => ih answer (hnext answer s' hdoes)⟩
      rw [annotate]
      generalize notes op = list at *
      induction list with
      | nil => exact hcall
      | cons n list ihlist =>
          exact ⟨hnotes n List.mem_cons_self, fun _ _ _ => ihlist
            (fun m hm => hnotes m (List.mem_cons_of_mem n hm))⟩

end Program

end Foundation
end UnixPrograms
