import Mathlib.Algebra.Order.Ring.Nat
import Mathlib.Algebra.BigOperators.Group.List.Basic
import Mathlib.Data.List.TakeWhile

/-!
# Padded records in a stream of symbols

Records of a fixed width are written one after another into a stream, each
its content followed by padding.  The stream is read in nonempty pieces, and
of each piece only the symbols before the first padding are used.  The reader
obtains the contents exactly when every record begins a piece that holds its
content whole.
-/

namespace UnixPrograms
namespace Foundation

variable {α : Type}

def record (pad : α) (width : Nat) (content : List α) : List α :=
  content ++ List.replicate (width - content.length) pad

/-- A content that a record of the given width can hold. -/
structure Fits (pad : α) (width : Nat) (content : List α) : Prop where
  nonempty : content ≠ []
  short : content.length ≤ width
  noPad : pad ∉ content

/-- The record of every content, the first of which lies `offset` symbols
ahead, begins a piece that is long enough for the content. -/
def AlignedFrom (width offset : Nat) (contents : List (List α))
    (sizes : List Nat) : Prop :=
  forall i content, contents[i]? = some content ->
    exists k size, sizes[k]? = some size ∧
      (sizes.take k).sum = offset + width * i ∧ content.length ≤ size

/-!
## Alignment along the pieces
-/

theorem alignedFrom_nil (width offset : Nat) (sizes : List Nat) :
    AlignedFrom width offset ([] : List (List α)) sizes := by
  intro i content h
  cases h

theorem alignedFrom_skip {width offset size : Nat}
    {contents : List (List α)} (sizes : List Nat) (hpos : 0 < offset)
    (hsize : size ≤ offset) :
    AlignedFrom width offset contents (size :: sizes) <->
      AlignedFrom width (offset - size) contents sizes := by
  constructor
  · intro h i content hi
    rcases h i content hi with ⟨k, n, hk, hsum, hlen⟩
    cases k with
    | zero =>
        rw [List.take_zero, List.sum_nil] at hsum
        lia
    | succ k =>
        rw [List.take_succ_cons, List.sum_cons] at hsum
        exact ⟨k, n, hk, by lia, hlen⟩
  · intro h i content hi
    rcases h i content hi with ⟨k, n, hk, hsum, hlen⟩
    refine ⟨k + 1, n, hk, ?_, hlen⟩
    rw [List.take_succ_cons, List.sum_cons]
    lia

theorem not_alignedFrom_across {width offset size : Nat} {content : List α}
    (contents : List (List α)) (sizes : List Nat) (hpos : 0 < offset)
    (hsize : offset < size) :
    ¬ AlignedFrom width offset (content :: contents) (size :: sizes) := by
  intro h
  rcases h 0 content rfl with ⟨k, n, _, hsum, _⟩
  cases k with
  | zero =>
      rw [List.take_zero, List.sum_nil] at hsum
      lia
  | succ k =>
      rw [List.take_succ_cons, List.sum_cons] at hsum
      lia

theorem alignedFrom_begin {width size : Nat} {content : List α}
    {contents : List (List α)} (sizes : List Nat) (hpos : 0 < size)
    (hsize : size ≤ width) :
    AlignedFrom width 0 (content :: contents) (size :: sizes) <->
      content.length ≤ size ∧
        AlignedFrom width (width - size) contents sizes := by
  constructor
  · intro h
    constructor
    · rcases h 0 content rfl with ⟨k, n, hk, hsum, hlen⟩
      cases k with
      | zero =>
          injection hk with hk
          rw [hk]
          exact hlen
      | succ k =>
          rw [List.take_succ_cons, List.sum_cons] at hsum
          lia
    · intro i c hi
      rcases h (i + 1) c hi with ⟨k, n, hk, hsum, hlen⟩
      cases k with
      | zero =>
          rw [List.take_zero, List.sum_nil, Nat.mul_succ] at hsum
          lia
      | succ k =>
          rw [List.take_succ_cons, List.sum_cons, Nat.mul_succ] at hsum
          exact ⟨k, n, hk, by lia, hlen⟩
  · intro h i c hi
    cases i with
    | zero =>
        injection hi with hi
        rw [← hi]
        exact ⟨0, size, rfl, by simp, h.left⟩
    | succ i =>
        rcases h.right i c hi with ⟨k, n, hk, hsum, hlen⟩
        refine ⟨k + 1, n, hk, ?_, hlen⟩
        rw [List.take_succ_cons, List.sum_cons, Nat.mul_succ]
        lia

/-!
## Records and pieces
-/

theorem record_length {pad : α} {width : Nat} {content : List α}
    (h : Fits pad width content) : (record pad width content).length = width := by
  rw [record, List.length_append, List.length_replicate]
  have hshort := h.short
  lia

theorem drop_record {pad : α} {width size : Nat} {content : List α}
    (hle : content.length ≤ size) :
    (record pad width content).drop size =
      List.replicate (width - size) pad := by
  rw [record, List.drop_append, List.drop_eq_nil_of_le hle, List.nil_append,
    List.drop_replicate]
  congr 1
  lia

theorem split_piece {piece rest first second : List α}
    (hflat : piece ++ rest = first ++ second)
    (hle : piece.length ≤ first.length) :
    piece = first.take piece.length ∧
      rest = first.drop piece.length ++ second := by
  have hpiece := congrArg (List.take piece.length) hflat
  have hrest := congrArg (List.drop piece.length) hflat
  rw [List.take_left, List.take_append_of_le_length hle] at hpiece
  rw [List.drop_left, List.drop_append_of_le_length hle] at hrest
  exact ⟨hpiece, hrest⟩

theorem mem_piece_across {piece rest first second : List α} {a : α}
    (hflat : piece ++ rest = first ++ a :: second)
    (hacross : first.length < piece.length) : a ∈ piece := by
  have hget := congrArg (fun l => l[first.length]?) hflat
  rw [List.getElem?_append_left hacross, List.getElem?_append_right (le_refl _),
    Nat.sub_self, List.getElem?_cons_zero] at hget
  exact List.mem_of_getElem? hget

theorem length_flatten_take_le (limit : Nat) (pieces : List (List α)) :
    (pieces.map (fun piece => piece.take limit)).flatten.length ≤
      pieces.flatten.length := by
  induction pieces with
  | nil => simp
  | cons piece pieces ih =>
      rw [List.map_cons, List.flatten_cons, List.flatten_cons,
        List.length_append, List.length_append, List.length_take]
      lia

theorem flatten_take_eq_iff (limit : Nat) (pieces : List (List α)) :
    (pieces.map (fun piece => piece.take limit)).flatten = pieces.flatten <->
      forall piece, piece ∈ pieces -> piece.length ≤ limit := by
  induction pieces with
  | nil => simp
  | cons piece pieces ih =>
      rw [List.map_cons, List.flatten_cons, List.flatten_cons,
        List.forall_mem_cons, ← ih]
      constructor
      · intro h
        have hle := length_flatten_take_le limit pieces
        have hlength := congrArg List.length h
        rw [List.length_append, List.length_append, List.length_take] at hlength
        have hshort : piece.length ≤ limit := by
          lia
        rw [List.take_of_length_le hshort] at h
        exact ⟨hshort, List.append_cancel_left h⟩
      · intro h
        rw [List.take_of_length_le h.left, h.right]

theorem flatten_take_eq_of_length {limit : Nat} {pieces : List (List α)}
    (h : (pieces.map (fun piece => piece.take limit)).flatten.length =
      pieces.flatten.length) :
    (pieces.map (fun piece => piece.take limit)).flatten = pieces.flatten := by
  have hsub : (pieces.map (fun piece => piece.take limit)).flatten.Sublist
      pieces.flatten := by
    clear h
    induction pieces with
    | nil => exact List.Sublist.refl []
    | cons piece pieces ih =>
        rw [List.map_cons, List.flatten_cons, List.flatten_cons]
        exact (List.take_sublist limit piece).append ih
  exact hsub.eq_of_length h

/-!
## Heads
-/

section Heads

variable [DecidableEq α]

def headOf (pad : α) (piece : List α) : List α :=
  piece.takeWhile (fun a => a ≠ pad)

/-- What a reader obtains that skips the pieces with an empty head. -/
def heads (pad : α) (pieces : List (List α)) : List (List α) :=
  (pieces.map (headOf pad)).filter (fun s => s ≠ [])

theorem headOf_pad (pad : α) (rest : List α) : headOf pad (pad :: rest) = [] := by
  simp [headOf]

theorem headOf_append_pad {pad : α} {content : List α} (h : pad ∉ content)
    (count : Nat) :
    headOf pad (content ++ List.replicate count pad) = content := by
  unfold headOf
  have hall : forall a, a ∈ content -> (fun a => decide (a ≠ pad)) a = true := by
    intro a ha
    have hne : a ≠ pad := fun hcontra => h (hcontra ▸ ha)
    simpa using hne
  rw [List.takeWhile_append_of_pos hall]
  cases count with
  | zero => simp
  | succ count => simp [List.replicate_succ]

theorem heads_cons_of_empty {pad : α} {piece : List α}
    (pieces : List (List α)) (h : headOf pad piece = []) :
    heads pad (piece :: pieces) = heads pad pieces := by
  simp [heads, h]

theorem heads_cons_of_nonempty {pad : α} {piece : List α}
    (pieces : List (List α)) (h : headOf pad piece ≠ []) :
    heads pad (piece :: pieces) = headOf pad piece :: heads pad pieces := by
  simp [heads, h]

/-!
## Counting symbols
-/

theorem headOf_length_le (pad : α) (piece : List α) :
    (headOf pad piece).length ≤ piece.countP (fun a => a ≠ pad) := by
  induction piece with
  | nil => simp [headOf]
  | cons a rest ih =>
      by_cases ha : a = pad
      · rw [ha, headOf_pad]
        exact Nat.zero_le _
      · have hcons : headOf pad (a :: rest) = a :: headOf pad rest := by
          simp [headOf, ha]
        rw [hcons, List.countP_cons_of_pos (by simpa using ha)]
        exact Nat.succ_le_succ ih

theorem heads_length_le (pad : α) (pieces : List (List α)) :
    (heads pad pieces).flatten.length ≤
      pieces.flatten.countP (fun a => a ≠ pad) := by
  induction pieces with
  | nil => simp [heads]
  | cons piece pieces ih =>
      rw [List.flatten_cons, List.countP_append]
      by_cases h : headOf pad piece = []
      · rw [heads_cons_of_empty _ h]
        exact le_trans ih (Nat.le_add_left _ _)
      · rw [heads_cons_of_nonempty _ h, List.flatten_cons, List.length_append]
        exact Nat.add_le_add (headOf_length_le pad piece) ih

theorem countP_replicate_pad (pad : α) (count : Nat) :
    (List.replicate count pad).countP (fun a => a ≠ pad) = 0 := by
  simp [List.countP_replicate]

theorem countP_of_noPad {pad : α} {content : List α} (h : pad ∉ content) :
    content.countP (fun a => a ≠ pad) = content.length := by
  rw [List.countP_eq_length]
  intro a ha
  have hne : a ≠ pad := fun hcontra => h (hcontra ▸ ha)
  simpa using hne

theorem countP_records {pad : α} {width : Nat} {contents : List (List α)}
    (h : forall content, content ∈ contents -> Fits pad width content) :
    (contents.map (record pad width)).flatten.countP (fun a => a ≠ pad) =
      contents.flatten.length := by
  induction contents with
  | nil => rfl
  | cons content contents ih =>
      have hfits := h content List.mem_cons_self
      have hrest := ih (fun c hc => h c (List.mem_cons_of_mem _ hc))
      rw [List.map_cons, List.flatten_cons, List.countP_append, hrest, record,
        List.countP_append, countP_of_noPad hfits.noPad, countP_replicate_pad,
        List.flatten_cons, List.length_append, Nat.add_zero]

/-!
## The contents and the pieces
-/

theorem heads_ne_of_lost {pad : α} {width lost : Nat}
    {contents pieces : List (List α)}
    (hfits : forall content, content ∈ contents -> Fits pad width content)
    (hlost : 0 < lost)
    (hflat :
      pieces.flatten.countP (fun a => a ≠ pad) + lost =
        (contents.map (record pad width)).flatten.countP (fun a => a ≠ pad)) :
    heads pad pieces ≠ contents := by
  intro h
  have hle := heads_length_le pad pieces
  rw [h] at hle
  rw [countP_records hfits] at hflat
  lia

/-!
## The first piece of a stream
-/

theorem headOf_take_record {pad : α} {width : Nat} {content : List α}
    (h : Fits pad width content) (size : Nat) :
    headOf pad ((record pad width content).take size) = content.take size := by
  have hnoPad : pad ∉ content.take size :=
    fun hmem => h.noPad (List.mem_of_mem_take hmem)
  rw [record, List.take_append, List.take_replicate]
  exact headOf_append_pad hnoPad _

theorem heads_begin {pad : α} {width : Nat} {content : List α}
    {contents : List (List α)} {piece : List α} {pieces : List (List α)}
    (hfits : Fits pad width content) (hpiece : piece ≠ [])
    (htake : piece = (record pad width content).take piece.length) :
    heads pad (piece :: pieces) = content :: contents <->
      content.length ≤ piece.length ∧ heads pad pieces = contents := by
  have hpos : 0 < piece.length := List.length_pos_iff.mpr hpiece
  have hhead : headOf pad piece = content.take piece.length := by
    rw [htake, headOf_take_record hfits, ← htake]
  have hnonempty : headOf pad piece ≠ [] := by
    rw [hhead, Ne, List.take_eq_nil_iff]
    intro h
    rcases h with h | h
    · lia
    · exact hfits.nonempty h
  rw [heads_cons_of_nonempty _ hnonempty, hhead, List.cons.injEq]
  apply and_congr_left
  intro _
  constructor
  · intro h
    rw [← h, List.length_take]
    exact min_le_left _ _
  · exact List.take_of_length_le

theorem headOf_of_padding {pad : α} {offset : Nat} {piece rest stream : List α}
    (hflat : piece ++ rest = List.replicate offset pad ++ stream)
    (hoffset : 0 < offset) : headOf pad piece = [] := by
  cases piece with
  | nil => rfl
  | cons a piece' =>
      rcases Nat.exists_eq_succ_of_ne_zero (Nat.ne_of_gt hoffset) with ⟨n, hn⟩
      rw [hn, List.replicate_succ, List.cons_append, List.cons_append] at hflat
      rw [List.head_eq_of_cons_eq hflat, headOf_pad]

theorem heads_ne_across {pad : α} {width offset : Nat} {content : List α}
    {contents : List (List α)} {piece : List α} {pieces : List (List α)}
    (hfits : forall c, c ∈ content :: contents -> Fits pad width c)
    (hflat :
      piece ++ pieces.flatten =
        List.replicate offset pad ++
          ((content :: contents).map (record pad width)).flatten)
    (hacross : offset < piece.length) :
    heads pad pieces ≠ content :: contents := by
  have hfit := hfits content List.mem_cons_self
  have hlost : 0 < piece.countP (fun a => a ≠ pad) := by
    cases hcontent : content with
    | nil => exact absurd hcontent hfit.nonempty
    | cons a content' =>
        rw [hcontent, List.map_cons, List.flatten_cons, record,
          List.cons_append, List.cons_append] at hflat
        have hmem : a ∈ piece := by
          apply mem_piece_across hflat
          rw [List.length_replicate]
          exact hacross
        have ha : a ≠ pad := by
          intro hpad
          apply hfit.noPad
          rw [hcontent, hpad]
          exact List.mem_cons_self
        exact List.countP_pos_iff.mpr ⟨a, hmem, by simpa using ha⟩
  apply heads_ne_of_lost hfits hlost
  have hcount := congrArg (List.countP (fun a => a ≠ pad)) hflat
  rw [List.countP_append, List.countP_append, countP_replicate_pad] at hcount
  lia

/-- The reader of a stream that begins with `offset` symbols of padding
obtains the contents exactly when their records are aligned. -/
theorem heads_eq_iff {pad : α} {width : Nat} {pieces : List (List α)}
    (hpieces :
      forall piece, piece ∈ pieces -> piece ≠ [] ∧ piece.length ≤ width) :
    forall {offset : Nat} {contents : List (List α)},
      (forall content, content ∈ contents -> Fits pad width content) ->
      pieces.flatten =
        List.replicate offset pad ++
          (contents.map (record pad width)).flatten ->
      (heads pad pieces = contents <->
        AlignedFrom width offset contents (pieces.map List.length)) := by
  induction pieces with
  | nil =>
      intro offset contents hfits hflat
      cases contents with
      | nil => exact ⟨fun _ => alignedFrom_nil _ _ _, fun _ => rfl⟩
      | cons content contents =>
          have hnonempty := (hfits content List.mem_cons_self).nonempty
          simp [record, hnonempty] at hflat
  | cons piece pieces ih =>
      intro offset contents hfits hflat
      have hpiece := hpieces piece List.mem_cons_self
      have hrestPieces := fun p hp => hpieces p (List.mem_cons_of_mem piece hp)
      have hpos : 0 < piece.length := List.length_pos_iff.mpr hpiece.left
      rw [List.flatten_cons] at hflat
      rw [List.map_cons]
      rcases Nat.eq_zero_or_pos offset with hzero | hoffset
      · -- the piece begins where a record does
        rw [hzero, List.replicate_zero, List.nil_append] at hflat
        rw [hzero]
        cases contents with
        | nil => simp [hpiece.left] at hflat
        | cons content contents =>
            have hfit := hfits content List.mem_cons_self
            have hlength := record_length hfit
            rw [List.map_cons, List.flatten_cons] at hflat
            rcases split_piece hflat (by lia) with ⟨htake, hrest⟩
            rw [heads_begin hfit hpiece.left htake,
              alignedFrom_begin _ hpos hpiece.right]
            apply and_congr_right
            intro hlong
            rw [drop_record hlong] at hrest
            exact ih hrestPieces
              (fun c hc => hfits c (List.mem_cons_of_mem content hc)) hrest
      · rw [heads_cons_of_empty _ (headOf_of_padding hflat hoffset)]
        rcases Nat.lt_or_ge offset piece.length with hacross | hinside
        · -- the piece reaches from the padding into a record
          cases contents with
          | nil =>
              have hlength := congrArg List.length hflat
              simp at hlength
              lia
          | cons content contents =>
              exact iff_of_false (heads_ne_across hfits hflat hacross)
                (not_alignedFrom_across _ _ hoffset hacross)
        · -- the piece lies in the padding
          have hlength : piece.length ≤ (List.replicate offset pad).length := by
            rw [List.length_replicate]
            exact hinside
          rcases split_piece hflat hlength with ⟨_, hrest⟩
          rw [List.drop_replicate] at hrest
          rw [alignedFrom_skip _ hoffset hinside]
          exact ih hrestPieces hfits hrest

end Heads

end Foundation
end UnixPrograms
