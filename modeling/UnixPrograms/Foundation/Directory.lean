import Mathlib.Logic.Function.Basic
import Mathlib.Data.List.Basic

/-!
# Directories of mailboxes

A directory gives every key that is present a mailbox of its own.  A key that
comes for the first time gets a fresh mailbox if there is room, and leaves the
directory with its last message.  What a mailbox receives is a matter of the
messages of its own key.
-/

namespace UnixPrograms
namespace Foundation

/-- What a message asks for: to be known only, to be stored, or to be stored
as the last one. -/
inductive Mail (payload : Type) where
  | look
  | put (content : payload)
  | last (content : payload)

structure Directory (key payload : Type) where
  box : key -> Option Nat
  received : Nat -> List payload
  size : Nat
  next : Nat

namespace Directory

variable {key payload : Type} [DecidableEq key]

def deliver (d : Directory key payload) (k : key) (p : Nat) :
    Mail payload -> Directory key payload
  | Mail.look => d
  | Mail.put content =>
      { d with
        received :=
          Function.update d.received p (d.received p ++ [content]) }
  | Mail.last content =>
      { d with
        box := Function.update d.box k none
        received := Function.update d.received p (d.received p ++ [content])
        size := d.size - 1 }

def enter (d : Directory key payload) (k : key) : Directory key payload where
  box := Function.update d.box k (some d.next)
  received := d.received
  size := d.size + 1
  next := d.next + 1

/-- One message; a new key is turned away when the directory is full. -/
def step (capacity : Nat) (d : Directory key payload)
    (message : key × Mail payload) : Directory key payload :=
  match d.box message.1 with
  | some p => d.deliver message.1 p message.2
  | none =>
      if capacity ≤ d.size then d
      else (d.enter message.1).deliver message.1 d.next message.2

def runAll (capacity : Nat) (d : Directory key payload)
    (messages : List (key × Mail payload)) : Directory key payload :=
  messages.foldl (step capacity) d

/-- Mailboxes are private, and those to come are empty. -/
structure Sound (d : Directory key payload) : Prop where
  own : forall k k' p, d.box k = some p -> d.box k' = some p -> k = k'
  known : forall k p, d.box k = some p -> p < d.next
  empty : forall p, d.next ≤ p -> d.received p = []

/-- What the messages of one key leave in its mailbox: everything up to the
last one. -/
def untilLast : List (Mail payload) -> List payload
  | [] => []
  | Mail.look :: rest => untilLast rest
  | Mail.put content :: rest => content :: untilLast rest
  | Mail.last content :: _ => [content]

def mailOf (k : key) (messages : List (key × Mail payload)) :
    List (Mail payload) :=
  (messages.filter fun message => message.1 = k).map Prod.snd

variable {d : Directory key payload} {k k' : key} {p q : Nat}
  {mail : Mail payload}

theorem mailOf_cons_self (messages : List (key × Mail payload)) :
    mailOf k ((k, mail) :: messages) = mail :: mailOf k messages := by
  simp [mailOf]

theorem mailOf_cons_of_ne (messages : List (key × Mail payload))
    (h : k' ≠ k) : mailOf k ((k', mail) :: messages) = mailOf k messages := by
  simp [mailOf, h]

/-!
## What one message changes
-/

@[simp] theorem deliver_next (d : Directory key payload) (k : key) (p : Nat)
    (mail : Mail payload) : (d.deliver k p mail).next = d.next := by
  cases mail <;> rfl

theorem box_of_deliver (h : (d.deliver k p mail).box k' = some q) :
    d.box k' = some q := by
  cases mail with
  | look => exact h
  | put content => exact h
  | last content =>
      by_cases hk : k' = k
      · subst hk
        simp [deliver] at h
      · simpa [deliver, hk] using h

theorem deliver_box_of_ne (hk : k' ≠ k) :
    (d.deliver k p mail).box k' = d.box k' := by
  cases mail <;> simp [deliver, hk]

theorem deliver_received_of_ne (hq : q ≠ p) :
    (d.deliver k p mail).received q = d.received q := by
  cases mail <;> simp [deliver, hq]

@[simp] theorem enter_next (d : Directory key payload) (k : key) :
    (d.enter k).next = d.next + 1 := rfl

@[simp] theorem enter_received (d : Directory key payload) (k : key) :
    (d.enter k).received = d.received := rfl

@[simp] theorem enter_box_self (d : Directory key payload) (k : key) :
    (d.enter k).box k = some d.next := by
  simp [enter]

theorem enter_box_of_ne (d : Directory key payload) (hk : k' ≠ k) :
    (d.enter k).box k' = d.box k' := by
  simp [enter, hk]

theorem step_of_some (capacity : Nat) (hbox : d.box k = some p) :
    d.step capacity (k, mail) = d.deliver k p mail := by
  simp only [step, hbox]

theorem step_of_full {capacity : Nat} (hbox : d.box k = none)
    (hfull : capacity ≤ d.size) : d.step capacity (k, mail) = d := by
  simp only [step, hbox, if_pos hfull]

theorem step_of_room {capacity : Nat} (hbox : d.box k = none)
    (hroom : ¬ capacity ≤ d.size) :
    d.step capacity (k, mail) = (d.enter k).deliver k d.next mail := by
  simp only [step, hbox, if_neg hroom]

/-!
## Soundness is kept
-/

theorem Sound.deliver (h : d.Sound) (hbox : d.box k = some p) :
    (d.deliver k p mail).Sound := by
  have hp := h.known k p hbox
  refine ⟨?_, ?_, ?_⟩
  · intro k1 k2 q h1 h2
    exact h.own k1 k2 q (box_of_deliver h1) (box_of_deliver h2)
  · intro k1 q h1
    rw [deliver_next]
    exact h.known k1 q (box_of_deliver h1)
  · intro q hq
    rw [deliver_next] at hq
    rw [deliver_received_of_ne (by lia)]
    exact h.empty q hq

theorem Sound.enter (h : d.Sound) (k : key) : (d.enter k).Sound := by
  have hold : forall k' q, (d.enter k).box k' = some q ->
      k' = k ∧ q = d.next ∨ d.box k' = some q := by
    intro k' q hq
    by_cases hk : k' = k
    · subst hk
      rw [enter_box_self] at hq
      injection hq with hq
      exact Or.inl ⟨rfl, hq.symm⟩
    · rw [enter_box_of_ne d hk] at hq
      exact Or.inr hq
  refine ⟨?_, ?_, ?_⟩
  · intro k1 k2 q h1 h2
    rcases hold k1 q h1 with ⟨hk1, hq1⟩ | hq1 <;>
      rcases hold k2 q h2 with ⟨hk2, hq2⟩ | hq2
    · rw [hk1, hk2]
    · have hlt := h.known k2 q hq2
      lia
    · have hlt := h.known k1 q hq1
      lia
    · exact h.own k1 k2 q hq1 hq2
  · intro k1 q h1
    rw [enter_next]
    rcases hold k1 q h1 with ⟨_, hq⟩ | hq
    · lia
    · have hlt := h.known k1 q hq
      lia
  · intro q hq
    rw [enter_next] at hq
    exact h.empty q (by lia)

theorem Sound.step (h : d.Sound) (capacity : Nat)
    (message : key × Mail payload) : (d.step capacity message).Sound := by
  rcases message with ⟨k, mail⟩
  cases hbox : d.box k with
  | some p =>
      rw [step_of_some capacity hbox]
      exact h.deliver hbox
  | none =>
      by_cases hfull : capacity ≤ d.size
      · rw [step_of_full hbox hfull]
        exact h
      · rw [step_of_room hbox hfull]
        exact (h.enter k).deliver (enter_box_self d k)

/-!
## What a mailbox receives
-/

def Left (d : Directory key payload) (p : Nat) : Prop :=
  p < d.next ∧ forall k, d.box k ≠ some p

theorem Sound.left (h : d.Sound) (hbox : d.box k = some p) (content : payload) :
    (d.deliver k p (Mail.last content)).Left p := by
  refine ⟨h.known k p hbox, ?_⟩
  intro k' hk'
  have hsame := h.own k' k p (box_of_deliver hk') hbox
  rw [hsame] at hk'
  simp [Directory.deliver] at hk'

theorem Left.step (h : d.Left p) (capacity : Nat)
    (message : key × Mail payload) :
    (d.step capacity message).Left p ∧
      (d.step capacity message).received p = d.received p := by
  rcases message with ⟨k, mail⟩
  cases hbox : d.box k with
  | some q =>
      have hq : p ≠ q := by
        intro heq
        rw [← heq] at hbox
        exact h.right k hbox
      rw [step_of_some capacity hbox, deliver_received_of_ne hq]
      refine ⟨⟨?_, ?_⟩, rfl⟩
      · rw [deliver_next]
        exact h.left
      · intro k' hk'
        exact h.right k' (box_of_deliver hk')
  | none =>
      by_cases hfull : capacity ≤ d.size
      · rw [step_of_full hbox hfull]
        exact ⟨h, rfl⟩
      · have hlt := h.left
        rw [step_of_room hbox hfull, deliver_received_of_ne (by lia)]
        refine ⟨⟨?_, ?_⟩, rfl⟩
        · rw [deliver_next, enter_next]
          lia
        · intro k' hk'
          have hentered := box_of_deliver hk'
          by_cases hkk : k' = k
          · subst hkk
            rw [enter_box_self] at hentered
            injection hentered with heq
            lia
          · rw [enter_box_of_ne d hkk] at hentered
            exact h.right k' hentered

theorem Left.received (h : d.Left p) (capacity : Nat)
    (messages : List (key × Mail payload)) :
    (d.runAll capacity messages).received p = d.received p := by
  induction messages generalizing d with
  | nil => rfl
  | cons message rest ih =>
      rcases h.step capacity message with ⟨hleft, hsame⟩
      exact (ih hleft).trans hsame

theorem step_of_ne (h : d.Sound) (capacity : Nat) (hbox : d.box k = some p)
    (hk : k' ≠ k) :
    (d.step capacity (k', mail)).box k = some p ∧
      (d.step capacity (k', mail)).received p = d.received p := by
  cases hbox' : d.box k' with
  | some q =>
      have hq : p ≠ q := by
        intro heq
        rw [← heq] at hbox'
        exact hk (h.own k' k p hbox' hbox)
      rw [step_of_some capacity hbox', deliver_box_of_ne (Ne.symm hk),
        deliver_received_of_ne hq]
      exact ⟨hbox, rfl⟩
  | none =>
      by_cases hfull : capacity ≤ d.size
      · rw [step_of_full hbox' hfull]
        exact ⟨hbox, rfl⟩
      · have hlt := h.known k p hbox
        rw [step_of_room hbox' hfull, deliver_box_of_ne (Ne.symm hk),
          enter_box_of_ne d (Ne.symm hk), deliver_received_of_ne (by lia)]
        exact ⟨hbox, rfl⟩

theorem step_box_of_ne (capacity : Nat) (hk : k' ≠ k) :
    (d.step capacity (k', mail)).box k = d.box k := by
  cases hbox : d.box k' with
  | some q => rw [step_of_some capacity hbox, deliver_box_of_ne (Ne.symm hk)]
  | none =>
      by_cases hfull : capacity ≤ d.size
      · rw [step_of_full hbox hfull]
      · rw [step_of_room hbox hfull, deliver_box_of_ne (Ne.symm hk),
          enter_box_of_ne d (Ne.symm hk)]

/-- Whatever the other keys send, the mailbox of `k` receives the messages of
`k` up to its last one. -/
theorem received_of_box (h : d.Sound) (capacity : Nat)
    (hbox : d.box k = some p) (messages : List (key × Mail payload)) :
    (d.runAll capacity messages).received p =
      d.received p ++ untilLast (mailOf k messages) := by
  induction messages generalizing d with
  | nil => exact (List.append_nil _).symm
  | cons message rest ih =>
      rcases message with ⟨k', mail⟩
      change ((d.step capacity (k', mail)).runAll capacity rest).received p = _
      by_cases hk : k' = k
      · subst hk
        rw [step_of_some capacity hbox, mailOf_cons_self]
        have hsound : (d.deliver k' p mail).Sound := h.deliver hbox
        cases mail with
        | look => exact ih h hbox
        | put content =>
            rw [ih hsound hbox]
            simp [Directory.deliver, untilLast]
        | last content =>
            have hleft : (d.deliver k' p (Mail.last content)).Left p := by
              refine ⟨h.known k' p hbox, ?_⟩
              intro k1 hk1
              have hsame := h.own k1 k' p (box_of_deliver hk1) hbox
              subst hsame
              simp [Directory.deliver] at hk1
            rw [hleft.received capacity rest]
            simp [Directory.deliver, untilLast]
      · rcases step_of_ne h capacity hbox hk with ⟨hbox', hsame⟩
        rw [mailOf_cons_of_ne rest hk, ih (h.step capacity _) hbox', hsame]

end Directory

end Foundation
end UnixPrograms
