import UnixPrograms.Foundation.Ring
import UnixPrograms.Foundation.Transition

/-!
# The intrusive list

The functions of `list.c` over a heap of nodes at addresses of any type.  The
nodes of a list are a ring around its head, and what a traversal visits is the
sequence that the operations describe.
-/

namespace UnixPrograms
namespace SimplePrograms
namespace IntrusiveList

open Foundation

variable {addr : Type}

structure Node (addr : Type) where
  next : addr
  prev : addr
  value : Int

abbrev Heap (addr : Type) := addr -> Node addr

def links (heap : Heap addr) : Links addr where
  next := fun pos => (heap pos).next
  prev := fun pos => (heap pos).prev

/-!
## The code
-/

section Code

variable [DecidableEq addr]

def setNext (heap : Heap addr) (pos target : addr) : Heap addr :=
  Function.update heap pos { heap pos with next := target }

def setPrev (heap : Heap addr) (pos target : addr) : Heap addr :=
  Function.update heap pos { heap pos with prev := target }

def _listAdd (heap : Heap addr) (item prev next : addr) : Heap addr :=
  let heap := setNext heap prev item
  let heap := setPrev heap next item
  let heap := setPrev heap item prev
  setNext heap item next

def listInit (heap : Heap addr) (list : addr) : Heap addr :=
  let heap := setPrev heap list list
  setNext heap list list

def listAdd (heap : Heap addr) (new head : addr) : Heap addr :=
  _listAdd heap new head (heap head).next

def listAddBack (heap : Heap addr) (new head : addr) : Heap addr :=
  _listAdd heap new (heap head).prev head

def listDel (heap : Heap addr) (old : addr) : Heap addr :=
  let heap := setNext heap (heap old).prev (heap old).next
  setPrev heap (heap old).next (heap old).prev

end Code

/-!
## What the assignments change
-/

section Assignments

variable [DecidableEq addr]

theorem field_kept {beta : Type} (heap : Heap addr) (pos : addr)
    (node : Node addr) (field : Node addr -> beta)
    (h : field node = field (heap pos)) (p : addr) :
    field (Function.update heap pos node p) = field (heap p) := by
  by_cases hp : p = pos
  · rw [hp, Function.update_self]
    exact h
  · rw [Function.update_of_ne hp]

theorem setNext_links (heap : Heap addr) (pos target : addr) :
    links (setNext heap pos target) =
      { links heap with
        next := Function.update (links heap).next pos target } := by
  apply Links.ext
  · funext p
    exact Function.apply_update (fun _ node => node.next) heap pos _ p
  · funext p
    exact field_kept heap pos { heap pos with next := target }
      (fun node => node.prev) rfl p

theorem setPrev_links (heap : Heap addr) (pos target : addr) :
    links (setPrev heap pos target) =
      { links heap with
        prev := Function.update (links heap).prev pos target } := by
  apply Links.ext
  · funext p
    exact field_kept heap pos { heap pos with prev := target }
      (fun node => node.next) rfl p
  · funext p
    exact Function.apply_update (fun _ node => node.prev) heap pos _ p

theorem setNext_value (heap : Heap addr) (pos target p : addr) :
    (setNext heap pos target p).value = (heap p).value :=
  field_kept heap pos { heap pos with next := target }
    (fun node => node.value) rfl p

theorem setPrev_value (heap : Heap addr) (pos target p : addr) :
    (setPrev heap pos target p).value = (heap p).value :=
  field_kept heap pos { heap pos with prev := target }
    (fun node => node.value) rfl p

/-- Whether or not the places are distinct, the four assignments put the item
between the other two. -/
theorem _listAdd_links (heap : Heap addr) (item prev next : addr) :
    links (_listAdd heap item prev next) =
      (links heap).insert item prev next := by
  simp only [_listAdd, setNext_links, setPrev_links]
  rfl

theorem listDel_links (heap : Heap addr) (old : addr) :
    links (listDel heap old) = (links heap).unlink old := by
  -- The second assignment reads `old->next` after the first one, which can
  -- only have written what was there.
  have hnext : (setNext heap (heap old).prev (heap old).next old).next =
      (heap old).next := by
    by_cases hp : old = (heap old).prev
    · simp [setNext, ← hp]
    · simp [setNext, hp]
  have hprev : (setNext heap (heap old).prev (heap old).next old).prev =
      (heap old).prev := by
    by_cases hp : old = (heap old).prev
    · simp [setNext, ← hp]
    · simp [setNext, hp]
  simp only [listDel, setPrev_links, setNext_links, hnext, hprev]
  rfl

end Assignments

/-!
## Operations and sequences

A list is the ring of its head, and an operation exchanges a part of the ring.
All other nodes keep their links and values.
-/

section Operations

variable [DecidableEq addr] {head : addr}

inductive Op (addr : Type) where
  | add (new : addr)
  | addBack (new : addr)
  | del (old : addr)

def Op.added : Op addr -> Option addr
  | Op.add new => some new
  | Op.addBack new => some new
  | Op.del _ => none

def perform (head : addr) (heap : Heap addr) : Op addr -> Heap addr
  | Op.add new => listAdd heap new head
  | Op.addBack new => listAddBack heap new head
  | Op.del old => listDel heap old

/-- What an operation means for the sequence of nodes: the added ones are new
and the deleted ones are there. -/
def sequenceStep (head : addr) (xs : List addr) : Op addr -> Option (List addr)
  | Op.add new => if new ∈ head :: xs then none else some (new :: xs)
  | Op.addBack new => if new ∈ head :: xs then none else some (xs ++ [new])
  | Op.del old => if old ∈ xs then some (xs.erase old) else none

def Represents (heap : Heap addr) (head : addr) (xs : List addr) : Prop :=
  (links heap).Ring head xs

theorem listInit_represents (heap : Heap addr) (head : addr) :
    Represents (listInit heap head) head [] := by
  apply Links.ring_single
  · simp only [listInit, setNext_links, Function.update_self]
  · simp only [listInit, setNext_links, setPrev_links, Function.update_self]

theorem perform_represents {heap : Heap addr} {xs xs' : List addr}
    {op : Op addr} (h : Represents heap head xs)
    (hstep : sequenceStep head xs op = some xs') :
    Represents (perform head heap op) head xs' := by
  cases op with
  | add new =>
      rcases Option.ite_none_left_eq_some.mp hstep with ⟨hnew, heq⟩
      cases heq
      rw [Represents, perform, listAdd, _listAdd_links]
      exact h.insert_first hnew
  | addBack new =>
      rcases Option.ite_none_left_eq_some.mp hstep with ⟨hnew, heq⟩
      cases heq
      rw [Represents, perform, listAddBack, _listAdd_links]
      exact h.insert_last hnew
  | del old =>
      rcases Option.ite_none_right_eq_some.mp hstep with ⟨hold, heq⟩
      cases heq
      rw [Represents, perform, listDel_links]
      exact h.unlink hold

theorem run_represents {ops : List (Op addr)} {heap : Heap addr}
    {xs ys : List addr} (h : Represents heap head xs)
    (hrun : run (sequenceStep head) xs ops = some ys) :
    Represents (ops.foldl (perform head) heap) head ys := by
  induction ops generalizing heap xs with
  | nil =>
      cases hrun
      exact h
  | cons op ops ih =>
      rcases run_cons_eq_some hrun with ⟨xs', hstep, hrest⟩
      exact ih (perform_represents h hstep) hrest

theorem perform_value (heap : Heap addr) (op : Op addr) (p : addr) :
    (perform head heap op p).value = (heap p).value := by
  cases op with
  | add new =>
      simp only [perform, listAdd, _listAdd, setNext_value, setPrev_value]
  | addBack new =>
      simp only [perform, listAddBack, _listAdd, setNext_value, setPrev_value]
  | del old =>
      simp only [perform, listDel, setNext_value, setPrev_value]

theorem sequenceStep_mem {xs xs' : List addr} {op : Op addr} {p : addr}
    (hstep : sequenceStep head xs op = some xs') (hp : p ∈ xs') :
    p ∈ xs ∨ op.added = some p := by
  cases op with
  | add new =>
      rcases Option.ite_none_left_eq_some.mp hstep with ⟨_, heq⟩
      cases heq
      rcases List.mem_cons.mp hp with hp | hp
      · exact Or.inr (congrArg some hp.symm)
      · exact Or.inl hp
  | addBack new =>
      rcases Option.ite_none_left_eq_some.mp hstep with ⟨_, heq⟩
      cases heq
      rcases List.mem_append.mp hp with hp | hp
      · exact Or.inl hp
      · exact Or.inr (congrArg some (List.mem_singleton.mp hp).symm)
  | del old =>
      rcases Option.ite_none_right_eq_some.mp hstep with ⟨_, heq⟩
      cases heq
      exact Or.inl (List.mem_of_mem_erase hp)

theorem insert_frame {heap heap' : Heap addr} {item a b p : addr}
    {places : List addr}
    (hlinks : links heap' = (links heap).insert item a b)
    (hitem : item ∈ places) (ha : a ∈ places) (hb : b ∈ places)
    (hp : p ∉ places) :
    (heap' p).next = (heap p).next ∧ (heap' p).prev = (heap p).prev := by
  have hfresh : p ∉ [item] := by
    intro hmem
    rw [List.mem_singleton.mp hmem] at hp
    exact hp hitem
  constructor
  · calc
      (heap' p).next = ((links heap).insert item a b).next p :=
        congrArg (fun l => l.next p) hlinks
      _ = (heap p).next := Links.insert_next (fun heq => hp (heq ▸ ha)) hfresh
  · calc
      (heap' p).prev = ((links heap).insert item a b).prev p :=
        congrArg (fun l => l.prev p) hlinks
      _ = (heap p).prev := Links.insert_prev (fun heq => hp (heq ▸ hb)) hfresh

theorem perform_frame {heap : Heap addr} {xs xs' : List addr} {op : Op addr}
    {p : addr} (h : Represents heap head xs)
    (hstep : sequenceStep head xs op = some xs') (hp : p ∉ head :: xs') :
    (perform head heap op p).next = (heap p).next ∧
      (perform head heap op p).prev = (heap p).prev := by
  cases op with
  | add new =>
      rcases Option.ite_none_left_eq_some.mp hstep with ⟨_, heq⟩
      cases heq
      have hnext : (heap head).next ∈ head :: xs := h.next_mem List.mem_cons_self
      have hsub : head :: xs ⊆ head :: new :: xs :=
        List.cons_subset_cons head (List.subset_cons_self new xs)
      exact insert_frame (_listAdd_links heap new head _) (by simp)
        List.mem_cons_self (hsub hnext) hp
  | addBack new =>
      rcases Option.ite_none_left_eq_some.mp hstep with ⟨_, heq⟩
      cases heq
      have hprev : (heap head).prev ∈ head :: xs := h.prev_mem List.mem_cons_self
      have hsub : head :: xs ⊆ head :: (xs ++ [new]) :=
        List.cons_subset_cons head (List.subset_append_left xs [new])
      exact insert_frame (_listAdd_links heap new _ head) (by simp)
        (hsub hprev) List.mem_cons_self hp
  | del old =>
      rcases Option.ite_none_right_eq_some.mp hstep with ⟨hold, heq⟩
      cases heq
      rcases h.neighbours_mem hold with ⟨hprev, hnext⟩
      have hneprev : p ≠ (links heap).prev old := fun heq => hp (heq ▸ hprev)
      have hnenext : p ≠ (links heap).next old := fun heq => hp (heq ▸ hnext)
      constructor
      · calc
          (listDel heap old p).next = ((links heap).unlink old).next p :=
            congrArg (fun l => l.next p) (listDel_links heap old)
          _ = (heap p).next := Function.update_of_ne hneprev _ _
      · calc
          (listDel heap old p).prev = ((links heap).unlink old).prev p :=
            congrArg (fun l => l.prev p) (listDel_links heap old)
          _ = (heap p).prev := Function.update_of_ne hnenext _ _

structure WellFormed (heap : Heap addr) (head : addr) (xs : List addr) :
    Prop where
  forward : forall fuel, xs.length < fuel ->
    Links.traverse (fun pos => (heap pos).next) head fuel (heap head).next =
      some xs
  backward : forall fuel, xs.length < fuel ->
    Links.traverse (fun pos => (heap pos).prev) head fuel (heap head).prev =
      some xs.reverse
  distinct : (head :: xs).Nodup
  inverse : forall p, p ∈ head :: xs ->
    (heap (heap p).next).prev = p ∧ (heap (heap p).prev).next = p

theorem Represents.wellFormed {heap : Heap addr} {xs : List addr}
    (h : Represents heap head xs) : WellFormed heap head xs where
  forward := fun _ hfuel => h.traverse_next hfuel
  backward := fun _ hfuel => h.traverse_prev hfuel
  distinct := h.distinct
  inverse := fun _ hp => ⟨h.prev_next hp, h.next_prev hp⟩

/-- After any operations the list is well formed and has the sequence that
they describe.  The next operation keeps all values, and the links of the
nodes that are outside before it, apart from the added one, or after it. -/
theorem operations_keep_ring (heap : Heap addr) (head : addr)
    (ops : List (Op addr)) (xs : List addr)
    (hops : run (sequenceStep head) [] ops = some xs) :
    let reached := ops.foldl (perform head) (listInit heap head)
    WellFormed reached head xs ∧
      forall op xs', sequenceStep head xs op = some xs' -> forall p,
        (perform head reached op p).value = (reached p).value ∧
          ((p ∉ head :: xs ∧ op.added ≠ some p) ∨ p ∉ head :: xs' ->
            (perform head reached op p).next = (reached p).next ∧
              (perform head reached op p).prev = (reached p).prev) := by
  intro reached
  have hreached : Represents reached head xs :=
    run_represents (listInit_represents heap head) hops
  constructor
  · exact hreached.wellFormed
  · intro op xs' hstep p
    constructor
    · exact perform_value reached op p
    · intro houtside
      apply perform_frame hreached hstep
      rcases houtside with ⟨hp, hadded⟩ | hp
      · intro hmem
        rcases List.mem_cons.mp hmem with hmem | hmem
        · exact hp (List.mem_cons.mpr (Or.inl hmem))
        · rcases sequenceStep_mem hstep hmem with hmem | hmem
          · exact hp (List.mem_cons_of_mem head hmem)
          · exact hadded hmem
      · exact hp

theorem operations_keep_ring_three :
    WellFormed
      ([Op.add 1, Op.addBack 2, Op.add 3, Op.del 1].foldl (perform 0)
        (listInit (fun pos : Nat => ⟨pos, pos, 10⟩) 0)) 0 [3, 2] :=
  (operations_keep_ring (fun pos => ⟨pos, pos, 10⟩) 0
    [Op.add 1, Op.addBack 2, Op.add 3, Op.del 1] [3, 2] (by decide)).left

end Operations

end IntrusiveList
end SimplePrograms
end UnixPrograms
