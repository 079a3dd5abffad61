import Mathlib.Data.List.Chain
import Mathlib.Data.List.Nodup

/-!
# Doubly linked rings

Places that are linked in both directions.  A ring is a list of places, each
linked to the next one and the last one to the first.  A part between two
places is exchanged for another one by new links around it, and the rest of the
ring stays.
-/

namespace UnixPrograms
namespace Foundation

@[ext]
structure Links (place : Type) where
  next : place -> place
  prev : place -> place

namespace Links

variable {place : Type}

def Adjacent (links : Links place) (a b : place) : Prop :=
  links.next a = b ∧ links.prev b = a

def flip (links : Links place) : Links place where
  next := links.prev
  prev := links.next

/-- The ring of `head` and the places behind it. -/
structure Ring (links : Links place) (head : place) (rest : List place) :
    Prop where
  linked : List.IsChain links.Adjacent (head :: rest ++ [head])
  distinct : (head :: rest).Nodup

/-- The places from `pos` on until `head` comes, if it comes in time. -/
def traverse [DecidableEq place] (step : place -> place) (head : place) :
    Nat -> place -> Option (List place)
  | 0, _ => none
  | fuel + 1, pos =>
      if pos = head then some []
      else (traverse step head fuel (step pos)).map (fun later => pos :: later)

def insert [DecidableEq place] (links : Links place) (new a b : place) :
    Links place where
  next := Function.update (Function.update links.next a new) new b
  prev := Function.update (Function.update links.prev b new) new a

def unlink [DecidableEq place] (links : Links place) (old : place) :
    Links place where
  next := Function.update links.next (links.prev old) (links.next old)
  prev := Function.update links.prev (links.next old) (links.prev old)

theorem ring_single {links : Links place} {head : place}
    (hnext : links.next head = head) (hprev : links.prev head = head) :
    links.Ring head [] where
  linked := List.isChain_pair.mpr ⟨hnext, hprev⟩
  distinct := List.nodup_singleton head

/-!
## Exchanging a part
-/

section Exchange

variable {links links' : Links place}

theorem chain_frame {places : List place}
    (h : List.IsChain links.Adjacent places)
    (hnext : forall p, p ∈ places.dropLast -> links'.next p = links.next p)
    (hprev : forall p, p ∈ places.tail -> links'.prev p = links.prev p) :
    List.IsChain links'.Adjacent places := by
  induction places with
  | nil => exact List.IsChain.nil
  | cons a places ih =>
      cases places with
      | nil => exact List.isChain_singleton a
      | cons b places =>
          rw [List.isChain_cons_cons] at h ⊢
          have hfirst := hnext a List.mem_cons_self
          have hsecond := hprev b List.mem_cons_self
          constructor
          · exact ⟨hfirst.trans h.left.left, hsecond.trans h.left.right⟩
          · apply ih h.right
            · intro p hp
              exact hnext p (List.mem_cons_of_mem a hp)
            · intro p hp
              exact hprev p (List.mem_cons_of_mem b hp)

/-- The part between `a` and `b` is exchanged.  Apart from the new part, only
`a` has another next place and only `b` another previous one. -/
theorem chain_exchange {before after old new : List place} {a b : place}
    (h : List.IsChain links.Adjacent (before ++ a :: old ++ b :: after))
    (hstarts : (before ++ a :: old ++ b :: after).dropLast.Nodup)
    (hends : (before ++ a :: old ++ b :: after).tail.Nodup)
    (hnew : List.IsChain links'.Adjacent (a :: new ++ [b]))
    (hfresh : forall p, p ∈ new -> p ∉ before ++ a :: old ++ b :: after)
    (hnext : forall p, p ≠ a -> p ∉ new -> links'.next p = links.next p)
    (hprev : forall p, p ≠ b -> p ∉ new -> links'.prev p = links.prev p) :
    List.IsChain links'.Adjacent (before ++ a :: new ++ b :: after) := by
  have hne : before ++ a :: old ≠ [] := by simp
  rw [List.dropLast_append_of_ne_nil (List.cons_ne_nil b after),
    List.nodup_append] at hstarts
  rw [List.tail_append_of_ne_nil hne, List.nodup_append] at hends
  rcases hstarts with ⟨hfront, _, hstarts⟩
  rcases hends with ⟨_, hback, hends⟩
  rcases List.isChain_split.mp h with ⟨hbefore, hafter⟩
  rw [List.append_assoc, List.cons_append, List.isChain_split] at hbefore
  have hleft : List.IsChain links'.Adjacent (before ++ [a]) := by
    apply chain_frame hbefore.left
    · intro p hp
      rw [List.dropLast_concat] at hp
      apply hnext
      · intro heq
        rw [heq] at hp
        exact (List.nodup_append.mp hfront).right.right a hp a
          List.mem_cons_self rfl
      · intro hin
        exact hfresh p hin (by simp [hp])
    · intro p hp
      have hmem : p ∈ (before ++ a :: old).tail := by
        cases before with
        | nil => cases hp
        | cons c before =>
            rcases List.mem_append.mp hp with hp | hp
            · exact List.mem_append_left _ hp
            · rw [List.mem_singleton.mp hp]
              exact List.mem_append_right _ List.mem_cons_self
      apply hprev
      · exact hends p hmem b List.mem_cons_self
      · intro hin
        exact hfresh p hin
          (List.mem_append_left _ (List.mem_of_mem_tail hmem))
  have hright : List.IsChain links'.Adjacent (b :: after) := by
    apply chain_frame hafter
    · intro p hp
      apply hnext
      · intro heq
        exact hstarts a (by simp) p hp heq.symm
      · intro hin
        exact hfresh p hin
          (List.mem_append_right _ (List.dropLast_subset _ hp))
    · intro p hp
      apply hprev
      · intro heq
        rw [heq] at hp
        exact (List.nodup_cons.mp hback).left hp
      · intro hin
        exact hfresh p hin (by simp [show p ∈ after from hp])
  rw [List.isChain_split]
  constructor
  · rw [List.append_assoc, List.cons_append, List.isChain_split]
    exact ⟨hleft, hnew⟩
  · exact hright

theorem Ring.exchange {head : place} {rest rest' before after old new : List place}
    {a b : place} (h : links.Ring head rest)
    (hold : head :: rest ++ [head] = before ++ a :: old ++ b :: after)
    (hnew : head :: rest' ++ [head] = before ++ a :: new ++ b :: after)
    (hdistinct : (head :: rest').Nodup)
    (hfresh : forall p, p ∈ new -> p ∉ head :: rest)
    (hpart : List.IsChain links'.Adjacent (a :: new ++ [b]))
    (hnext : forall p, p ≠ a -> p ∉ new -> links'.next p = links.next p)
    (hprev : forall p, p ≠ b -> p ∉ new -> links'.prev p = links.prev p) :
    links'.Ring head rest' := by
  have hlinked := h.linked
  have hends : (rest ++ [head]).Nodup :=
    (List.perm_append_singleton head rest).nodup_iff.mpr h.distinct
  refine ⟨?_, hdistinct⟩
  rw [hnew]
  rw [hold] at hlinked
  apply chain_exchange hlinked ?_ ?_ hpart ?_ hnext hprev
  · rw [← hold, List.dropLast_concat]
    exact h.distinct
  · rw [← hold]
    exact hends
  · intro p hin
    rw [← hold]
    intro hmem
    rcases List.mem_append.mp hmem with hmem | hmem
    · exact hfresh p hin hmem
    · rw [List.mem_singleton.mp hmem] at hin
      exact hfresh head hin List.mem_cons_self

end Exchange

/-!
## Neighbours
-/

section Neighbours

variable {links : Links place} {head : place} {rest : List place}

theorem Ring.flip (h : links.Ring head rest) :
    links.flip.Ring head rest.reverse where
  linked := by
    have hreverse : head :: rest.reverse ++ [head] =
        (head :: rest ++ [head]).reverse := by
      simp
    rw [hreverse, List.isChain_reverse]
    exact h.linked.imp (fun a b hadjacent => ⟨hadjacent.right, hadjacent.left⟩)
  distinct := by
    rw [List.nodup_cons, List.mem_reverse, List.nodup_reverse]
    exact List.nodup_cons.mp h.distinct

theorem Ring.next_adjacent (h : links.Ring head rest) {p : place}
    (hp : p ∈ head :: rest) :
    links.Adjacent p (links.next p) ∧ links.next p ∈ head :: rest := by
  rcases List.append_of_mem hp with ⟨before, later, hsplit⟩
  have hlinked := h.linked
  rw [hsplit, List.append_assoc, List.cons_append] at hlinked
  cases hlater : later ++ [head] with
  | nil => simp at hlater
  | cons b after =>
      rw [hlater] at hlinked
      have hadjacent := (List.isChain_append_cons_cons.mp hlinked).right.left
      have hb : b ∈ later ++ [head] := by
        rw [hlater]
        exact List.mem_cons_self
      rw [hadjacent.left]
      constructor
      · exact hadjacent
      · rcases List.mem_append.mp hb with hb | hb
        · rw [hsplit]
          exact List.mem_append_right _ (List.mem_cons_of_mem p hb)
        · rw [List.mem_singleton.mp hb]
          exact List.mem_cons_self

theorem Ring.next_mem (h : links.Ring head rest) {p : place}
    (hp : p ∈ head :: rest) : links.next p ∈ head :: rest :=
  (h.next_adjacent hp).right

theorem Ring.prev_mem (h : links.Ring head rest) {p : place}
    (hp : p ∈ head :: rest) : links.prev p ∈ head :: rest := by
  have hmem : links.prev p ∈ head :: rest.reverse :=
    h.flip.next_mem (by simpa using hp)
  simpa using hmem

theorem Ring.prev_next (h : links.Ring head rest) {p : place}
    (hp : p ∈ head :: rest) : links.prev (links.next p) = p :=
  (h.next_adjacent hp).left.right

theorem Ring.next_prev (h : links.Ring head rest) {p : place}
    (hp : p ∈ head :: rest) : links.next (links.prev p) = p :=
  h.flip.prev_next (by simpa using hp)

end Neighbours

/-!
## Operations on a ring
-/

section Operations

variable [DecidableEq place] {links : Links place} {head : place}
  {rest : List place}

theorem chain_insert {new a b : place} (ha : a ≠ new) (hb : b ≠ new) :
    List.IsChain (links.insert new a b).Adjacent [a, new, b] := by
  rw [List.isChain_cons_cons, List.isChain_pair]
  constructor
  · constructor
    · exact (Function.update_of_ne ha _ _).trans (Function.update_self _ _ _)
    · exact Function.update_self _ _ _
  · constructor
    · exact Function.update_self _ _ _
    · exact (Function.update_of_ne hb _ _).trans (Function.update_self _ _ _)

theorem insert_next {new a b p : place} (ha : p ≠ a) (hnew : p ∉ [new]) :
    (links.insert new a b).next p = links.next p := by
  have hne : p ≠ new := fun heq => hnew (List.mem_singleton.mpr heq)
  exact (Function.update_of_ne hne _ _).trans (Function.update_of_ne ha _ _)

theorem insert_prev {new a b p : place} (hb : p ≠ b) (hnew : p ∉ [new]) :
    (links.insert new a b).prev p = links.prev p := by
  have hne : p ≠ new := fun heq => hnew (List.mem_singleton.mpr heq)
  exact (Function.update_of_ne hne _ _).trans (Function.update_of_ne hb _ _)

theorem Ring.insert_first (h : links.Ring head rest) {new : place}
    (hnew : new ∉ head :: rest) :
    (links.insert new head (links.next head)).Ring head (new :: rest) := by
  have hfresh : forall p, p ∈ [new] -> p ∉ head :: rest := by
    intro p hp
    rw [List.mem_singleton.mp hp]
    exact hnew
  have hhead : head ≠ new := fun heq => hnew (heq ▸ List.mem_cons_self)
  have hnext : links.next head ≠ new :=
    fun heq => hnew (heq ▸ h.next_mem List.mem_cons_self)
  have hdistinct : (head :: new :: rest).Nodup :=
    (List.Perm.swap new head rest).nodup_iff.mpr
      (List.nodup_cons.mpr ⟨hnew, h.distinct⟩)
  cases hrest : rest ++ [head] with
  | nil => simp at hrest
  | cons b after =>
      have hlinked := h.linked
      rw [List.cons_append, hrest] at hlinked
      have hb : b = links.next head :=
        (List.isChain_cons_cons.mp hlinked).left.left.symm
      rw [hb] at hrest
      have hclosed : head :: rest ++ [head] =
          [] ++ head :: [] ++ links.next head :: after :=
        congrArg (List.cons head) hrest
      apply h.exchange hclosed ?_ hdistinct hfresh (chain_insert hhead hnext)
        (fun p => insert_next) (fun p => insert_prev)
      exact congrArg (fun later => head :: new :: later) hrest

theorem Ring.insert_last (h : links.Ring head rest) {new : place}
    (hnew : new ∉ head :: rest) :
    (links.insert new (links.prev head) head).Ring head (rest ++ [new]) := by
  have hback : new ∉ head :: rest.reverse := by simpa using hnew
  have hlast := (h.flip.insert_first hback).flip
  rw [List.reverse_cons, List.reverse_reverse] at hlast
  exact hlast

theorem Ring.around (h : links.Ring head rest) {old : place} (hold : old ∈ rest) :
    exists before after,
      head :: rest ++ [head] =
        before ++ links.prev old :: [old] ++ links.next old :: after ∧
      head :: rest.erase old ++ [head] =
        before ++ links.prev old :: [] ++ links.next old :: after := by
  rcases List.append_of_mem hold with ⟨ys, zs, hrest⟩
  have hdistinct := (List.nodup_cons.mp h.distinct).right
  rw [hrest] at hdistinct
  have hys : old ∉ ys := by
    intro hmem
    exact (List.nodup_append.mp hdistinct).right.right old hmem old
      List.mem_cons_self rfl
  have herase : rest.erase old = ys ++ zs := by
    rw [hrest, List.erase_append_right _ hys, List.erase_cons_head]
  rcases List.eq_nil_or_concat (head :: ys) with hnil | ⟨before, a, hfront⟩
  · cases hnil
  cases hback : zs ++ [head] with
  | nil => simp at hback
  | cons b after =>
      rw [List.concat_eq_append] at hfront
      have hclosed :
          head :: rest ++ [head] = before ++ a :: [old] ++ b :: after := by
        rw [hrest, ← List.cons_append, hfront, ← hback]
        simp
      have hshort :
          head :: rest.erase old ++ [head] = before ++ a :: [] ++ b :: after := by
        rw [herase, ← List.cons_append, hfront, ← hback]
        simp
      have hlinked := h.linked
      rw [hclosed, List.append_assoc] at hlinked
      have haround := (List.isChain_append_cons_cons.mp hlinked).right
      have ha : links.prev old = a := haround.left.right
      have hb : links.next old = b :=
        (List.isChain_cons_cons.mp haround.right).left.left
      rw [ha, hb]
      exists before, after

theorem Ring.unlink (h : links.Ring head rest) {old : place} (hold : old ∈ rest) :
    (links.unlink old).Ring head (rest.erase old) := by
  rcases h.around hold with ⟨before, after, hclosed, hshort⟩
  have hpart : List.IsChain (links.unlink old).Adjacent
      (links.prev old :: [] ++ [links.next old]) :=
    List.isChain_pair.mpr
      ⟨Function.update_self _ _ _, Function.update_self _ _ _⟩
  apply h.exchange hclosed hshort ?_ (fun p hp => nomatch hp) hpart
  · intro p hne _
    exact Function.update_of_ne hne _ _
  · intro p hne _
    exact Function.update_of_ne hne _ _
  · exact h.distinct.sublist (List.erase_sublist.cons_cons head)

theorem Ring.neighbours_mem (h : links.Ring head rest) {old : place}
    (hold : old ∈ rest) :
    links.prev old ∈ head :: rest.erase old ∧
      links.next old ∈ head :: rest.erase old := by
  rcases h.around hold with ⟨before, after, _, hshort⟩
  have hback : forall p, p ∈ head :: rest.erase old ++ [head] ->
      p ∈ head :: rest.erase old := by
    intro p hp
    rcases List.mem_append.mp hp with hp | hp
    · exact hp
    · rw [List.mem_singleton.mp hp]
      exact List.mem_cons_self
  rw [hshort] at hback
  constructor
  · exact hback _ (by simp)
  · exact hback _ (by simp)

end Operations

/-!
## Walking around
-/

section Walking

variable {links : Links place} {head : place} {rest : List place}

theorem traverse_chain [DecidableEq place] {later : List place} {p : place}
    {fuel : Nat} (h : List.IsChain links.Adjacent (p :: later ++ [head]))
    (hhead : head ∉ later) (hfuel : later.length < fuel) :
    traverse links.next head fuel (links.next p) = some later := by
  induction later generalizing p fuel with
  | nil =>
      have hnext : links.next p = head := (List.isChain_pair.mp h).left
      cases fuel with
      | zero => cases hfuel
      | succ fuel =>
          rw [hnext]
          exact if_pos rfl
  | cons q later ih =>
      have hstep := List.isChain_cons_cons.mp h
      have hnext : links.next p = q := hstep.left.left
      have hne : ¬ q = head := fun heq => hhead (heq ▸ List.mem_cons_self)
      cases fuel with
      | zero => cases hfuel
      | succ fuel =>
          have hrest := ih hstep.right
            (fun hmem => hhead (List.mem_cons_of_mem q hmem))
            (Nat.lt_of_succ_lt_succ hfuel)
          rw [hnext, traverse, if_neg hne, hrest]
          rfl

theorem Ring.traverse_next [DecidableEq place] (h : links.Ring head rest)
    {fuel : Nat} (hfuel : rest.length < fuel) :
    traverse links.next head fuel (links.next head) = some rest :=
  traverse_chain h.linked (List.nodup_cons.mp h.distinct).left hfuel

theorem Ring.traverse_prev [DecidableEq place] (h : links.Ring head rest)
    {fuel : Nat} (hfuel : rest.length < fuel) :
    traverse links.prev head fuel (links.prev head) = some rest.reverse :=
  h.flip.traverse_next (by simpa using hfuel)

end Walking

end Links

end Foundation
end UnixPrograms
