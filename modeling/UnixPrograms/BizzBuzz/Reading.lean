import UnixPrograms.BizzBuzz.Main

/-!
# Reading while writing

Which offsets the loop reads does not depend on what it reads there.  Two
sources that agree as long as what has been written is good are converted in
the same way, if what is written in the end is good.
-/

namespace UnixPrograms
namespace BizzBuzz

open Foundation

namespace Source

variable {source source' : Source} {size i count n : Nat} {v : Vars}

/-!
## The offsets that are read
-/

/-- The variables at the top of iteration `i`: the current token began at
`prevOff`, or its minus sign stands before. -/
structure Aligned (i : Nat) (v : Vars) : Prop where
  off : v.off = i
  prevOff : v.prevOff ≤ i

def Delivers (source : Source) (n : Nat) : Prop :=
  forall out off, off < n -> exists b, source out off = some b

theorem read_some {b : UInt8} (h : source v.out v.off = some b) :
    source.read v = (1, { v with temp := b, off := v.off + 1 }) := by
  rw [read, h]

theorem copy_off (hdelivers : source.Delivers n) (h : v.off + count ≤ n) :
    (source.copy count v).off = v.off + count ∧
      (source.copy count v).prevOff = v.prevOff := by
  induction count generalizing v with
  | zero => exact ⟨rfl, rfl⟩
  | succ count ih =>
      rcases hdelivers v.out v.off (by lia) with ⟨b, hb⟩
      rw [copy, read_some hb]
      rcases @ih (({ v with temp := b, off := v.off + 1 } : Vars).write [b])
        (by change v.off + 1 + count ≤ n; lia) with ⟨hoff, hprevOff⟩
      refine ⟨hoff.trans ?_, hprevOff⟩
      change v.off + 1 + count = _
      lia

def beforeCopy (v : Vars) : Vars :=
  let v := ({ v with off := v.prevOff } : Vars).writePrevSep
  if v.negative = true then v.write [45] else v

theorem copyToken_eq (source : Source) (i : Nat) (v : Vars) :
    source.copyToken i v =
      (source.read (source.copy (i - v.prevOff) (beforeCopy v))).2 ∧
        (beforeCopy v).off = v.prevOff ∧
        exists more, (beforeCopy v).out = v.out ++ more := by
  have hsep : exists more,
      ({ v with off := v.prevOff } : Vars).writePrevSep =
        { v with off := v.prevOff, out := v.out ++ more } := by
    rw [writePrevSep_eq, emitted_eq]
    exact ⟨_, rfl⟩
  rcases hsep with ⟨more, hsep⟩
  have hbefore : beforeCopy v =
      { v with off := v.prevOff, out := v.out ++ more ++ signOf v } := by
    rw [beforeCopy, hsep, write_sign]
    rfl
  have hprevOff : (beforeCopy v).prevOff = v.prevOff := by
    rw [hbefore]
  have hcopy : source.copyToken i v =
      (source.read
        (source.copy (i - (beforeCopy v).prevOff) (beforeCopy v))).2 := rfl
  refine ⟨hprevOff ▸ hcopy, ?_, ?_⟩
  · rw [hbefore]
  · rw [hbefore]
    exact ⟨more ++ signOf v, List.append_assoc ..⟩

theorem copyToken_off (hdelivers : source.Delivers (i + 1))
    (h : v.prevOff ≤ i) : (source.copyToken i v).off = i + 1 := by
  rcases copyToken_eq source i v with ⟨heq, hoff, _⟩
  have hcopy := @copy_off source (i - v.prevOff) (i + 1) (beforeCopy v)
    hdelivers (by rw [hoff]; lia)
  have hend : (source.copy (i - v.prevOff) (beforeCopy v)).off = i := by
    rw [hcopy.left, hoff]
    lia
  rcases hdelivers (source.copy (i - v.prevOff) (beforeCopy v)).out i
    (Nat.lt_succ_self i) with ⟨b, hb⟩
  rw [heq, read_some (show source _ _ = some b by rw [hend]; exact hb)]
  change (source.copy (i - v.prevOff) (beforeCopy v)).off + 1 = i + 1
  rw [hend]

theorem endOfToken_cases (i : Nat) (v : Vars) :
    (exists word, forall source : Source,
      source.endOfToken i v =
        { v.writePrevSep.write word with
          prevOff := i + 1
          lastIs5 := false
          sum := -3
          checkIsNum := true
          negative := false
          prevSep := v.temp }) ∨
    forall source : Source,
      source.endOfToken i v =
        { source.copyToken i v with
          prevOff := i + 1
          lastIs5 := false
          sum := -3
          checkIsNum := true
          negative := false
          prevSep := (source.copyToken i v).temp } := by
  have htemp : v.writePrevSep.temp = v.temp := by
    rw [writePrevSep_eq]
  by_cases hboth : v.lastIs5 = true ∧ v.sum = 0 ∧ v.checkIsNum = true
  · refine Or.inl ⟨BIZZBUZZ, fun source => ?_⟩
    rw [endOfToken, if_pos hboth, ← htemp]
    rfl
  · by_cases hfive : v.lastIs5 = true ∧ v.checkIsNum = true
    · refine Or.inl ⟨BUZZ, fun source => ?_⟩
      rw [endOfToken, if_neg hboth, if_pos hfive, ← htemp]
      rfl
    · by_cases hthree : v.sum = 0 ∧ v.checkIsNum = true
      · refine Or.inl ⟨BIZZ, fun source => ?_⟩
        rw [endOfToken, if_neg hboth, if_neg hfive, if_pos hthree, ← htemp]
        rfl
      · refine Or.inr (fun source => ?_)
        rw [endOfToken, if_neg hboth, if_neg hfive, if_neg hthree]

theorem endOfToken_aligned (hdelivers : source.Delivers (i + 1))
    (hoff : v.off = i + 1) (hprevOff : v.prevOff ≤ i) :
    Aligned (i + 1) (source.endOfToken i v) := by
  rcases endOfToken_cases i v with ⟨word, hword⟩ | hcopied
  · rw [hword, writePrevSep_eq]
    exact ⟨hoff, Nat.le_refl _⟩
  · rw [hcopied]
    exact ⟨copyToken_off hdelivers hprevOff, Nat.le_refl _⟩

theorem insideToken_aligned (hoff : v.off = i + 1) (hprevOff : v.prevOff ≤ i) :
    Aligned (i + 1) (insideToken i v) := by
  refine ⟨(insideToken_frame i v).right.left.trans hoff, ?_⟩
  rw [insideToken]
  split
  · split
    · exact Nat.succ_le_succ hprevOff
    · exact Nat.le_succ_of_le hprevOff
  · split
    · exact Nat.le_succ_of_le hprevOff
    · exact Nat.le_succ_of_le hprevOff

theorem iteration_ok (hdelivers : source.Delivers (i + 1))
    (h : Aligned i v) (size : Nat) :
    exists v', source.iteration size i v = Except.ok v' ∧
      Aligned (i + 1) v' := by
  rcases hdelivers v.out i (Nat.lt_succ_self i) with ⟨b, hb⟩
  have hread : source.read { v with prevSymbol := v.temp } =
      (1, readByte v b) := read_some (by rw [← h.off] at hb; exact hb)
  have hoff : (readByte v b).off = i + 1 := congrArg Nat.succ h.off
  simp only [iteration, hread, ne_eq, not_true_eq_false, if_false]
  by_cases hend : (readByte v b).temp = 32 ∨ i = size - 1 ∨
      (readByte v b).temp = 10 ∨ (readByte v b).temp = 9
  · rw [if_pos hend]
    exact ⟨_, rfl, endOfToken_aligned hdelivers hoff h.prevOff⟩
  · rw [if_neg hend]
    exact ⟨_, rfl, insideToken_aligned hoff h.prevOff⟩

theorem mainLoop_ok (hdelivers : source.Delivers n) (h : Aligned i v)
    (hcount : i + count ≤ n) (size : Nat) :
    exists v', source.mainLoop size count i v = Except.ok v' ∧
      Aligned (i + count) v' := by
  induction count generalizing i v with
  | zero => exact ⟨v, rfl, h⟩
  | succ count ih =>
      have hfirst : source.Delivers (i + 1) :=
        fun out off hoff => hdelivers out off (by lia)
      rcases iteration_ok hfirst h size with ⟨v1, hiter, haligned⟩
      rcases ih haligned (by lia) with ⟨v', hloop, hend⟩
      refine ⟨v', ?_, ?_⟩
      · rw [mainLoop, hiter]
        exact hloop
      · rw [← Nat.add_assoc, Nat.add_right_comm]
        exact hend

theorem mainLoop_add (source : Source) (size first rest i : Nat) (v : Vars) :
    source.mainLoop size (first + rest) i v =
      match source.mainLoop size first i v with
      | Except.error v => Except.error v
      | Except.ok v => source.mainLoop size rest (i + first) v := by
  induction first generalizing i v with
  | zero => rw [Nat.zero_add, mainLoop, Nat.add_zero]
  | succ first ih =>
      rw [Nat.add_right_comm, mainLoop, mainLoop]
      cases source.iteration size i v with
      | error v1 => rfl
      | ok v1 =>
          have hstart : i + (first + 1) = i + 1 + first := by
            lia
          rw [hstart]
          exact ih (i + 1) v1

/-!
## Two sources
-/

/-- The two sources deliver the same in front of offset `n`, as long as what
has been written is good. -/
structure Agree (Good : Bytes -> Prop) (n : Nat) (source source' : Source) :
    Prop where
  shorter : forall out more, Good (out ++ more) -> Good out
  same : forall out off, Good out -> off < n -> source out off = source' out off

section Agreement

variable {Good : Bytes -> Prop}

theorem copy_grows (source : Source) (count : Nat) (v : Vars) :
    exists more, (source.copy count v).out = v.out ++ more := by
  induction count generalizing v with
  | zero => exact ⟨[], (List.append_nil _).symm⟩
  | succ count ih =>
      have hread : (source.read v).2.out = v.out := by
        rw [read]
        split
        · rfl
        · rfl
      rcases ih ((source.read v).2.write [(source.read v).2.temp]) with
        ⟨more, hmore⟩
      refine ⟨(source.read v).2.temp :: more, ?_⟩
      rw [copy, hmore, Vars.write, hread, List.append_assoc]
      rfl

theorem read_congr (h : Agree Good n source source') (hgood : Good v.out)
    (hoff : v.off < n) : source'.read v = source.read v := by
  rw [read, read, h.same v.out v.off hgood hoff]

theorem copy_congr (h : Agree Good n source source')
    (hdelivers : source.Delivers n) (hoff : v.off + count ≤ n)
    (hgood : Good (source.copy count v).out) :
    source'.copy count v = source.copy count v := by
  induction count generalizing v with
  | zero => rfl
  | succ count ih =>
      rcases copy_grows source (count + 1) v with ⟨more, hmore⟩
      have hstart : Good v.out := h.shorter v.out more (hmore ▸ hgood)
      rcases hdelivers v.out v.off (by lia) with ⟨b, hb⟩
      rw [copy, copy, read_congr h hstart (by lia), read_some hb]
      rw [copy, read_some hb] at hgood
      refine ih ?_ hgood
      change v.off + 1 + count ≤ n
      lia

theorem copyToken_congr (h : Agree Good (i + 1) source source')
    (hdelivers : source.Delivers (i + 1)) (hprevOff : v.prevOff ≤ i)
    (hgood : Good (source.copyToken i v).out) :
    Good v.out ∧ source'.copyToken i v = source.copyToken i v := by
  rcases copyToken_eq source i v with ⟨heq, hoff, before, hbefore⟩
  rcases copyToken_eq source' i v with ⟨heq', _, _⟩
  have hfits : (beforeCopy v).off + (i - v.prevOff) ≤ i + 1 := by
    lia
  have hend := (copy_off hdelivers hfits).left
  rcases hdelivers (source.copy (i - v.prevOff) (beforeCopy v)).out
    (source.copy (i - v.prevOff) (beforeCopy v)).off (by lia) with ⟨b, hb⟩
  have hcopied : Good (source.copy (i - v.prevOff) (beforeCopy v)).out := by
    rw [heq, read_some hb] at hgood
    exact hgood
  rcases copy_grows source (i - v.prevOff) (beforeCopy v) with ⟨more, hmore⟩
  have hstart : Good (beforeCopy v).out := h.shorter _ more (hmore ▸ hcopied)
  refine ⟨h.shorter v.out before (hbefore ▸ hstart), ?_⟩
  rw [heq, heq', copy_congr h hdelivers hfits hcopied,
    read_congr h hcopied (by lia)]

theorem endOfToken_congr (h : Agree Good (i + 1) source source')
    (hdelivers : source.Delivers (i + 1)) (hprevOff : v.prevOff ≤ i)
    (hgood : Good (source.endOfToken i v).out) :
    Good v.out ∧ source'.endOfToken i v = source.endOfToken i v := by
  rcases endOfToken_cases i v with ⟨word, hword⟩ | hcopied
  · refine ⟨?_, by rw [hword, hword]⟩
    rw [hword, writePrevSep_eq, Vars.write, emitted_eq] at hgood
    exact h.shorter _ _ (h.shorter _ _ hgood)
  · rw [hcopied] at hgood
    rcases copyToken_congr h hdelivers hprevOff hgood with ⟨hstart, hsame⟩
    exact ⟨hstart, by rw [hcopied, hcopied, hsame]⟩

theorem iteration_congr (h : Agree Good (i + 1) source source')
    (hdelivers : source.Delivers (i + 1)) (haligned : Aligned i v) {v' : Vars}
    (hiter : source.iteration size i v = Except.ok v') (hgood : Good v'.out) :
    Good v.out ∧ source'.iteration size i v = Except.ok v' := by
  rcases hdelivers v.out i (Nat.lt_succ_self i) with ⟨b, hb⟩
  have hread : source.read { v with prevSymbol := v.temp } =
      (1, readByte v b) :=
    read_some (by rw [← haligned.off] at hb; exact hb)
  have hoff : v.off < i + 1 := by
    rw [haligned.off]
    exact Nat.lt_succ_self i
  have hread' : Good v.out -> source'.read { v with prevSymbol := v.temp } =
      (1, readByte v b) :=
    fun hstart =>
      (@read_congr _ _ _ { v with prevSymbol := v.temp } _ h hstart hoff).trans
        hread
  simp only [iteration, hread, ne_eq, not_true_eq_false, if_false] at hiter
  by_cases hend : (readByte v b).temp = 32 ∨ i = size - 1 ∨
      (readByte v b).temp = 10 ∨ (readByte v b).temp = 9
  · rw [if_pos hend] at hiter
    injection hiter with hiter
    rw [← hiter] at hgood ⊢
    rcases @endOfToken_congr _ _ i (readByte v b) _ h hdelivers
      haligned.prevOff hgood with ⟨hstart, hsame⟩
    refine ⟨hstart, ?_⟩
    simp only [iteration, hread' hstart, ne_eq, not_true_eq_false, if_false]
    rw [if_pos hend, hsame]
  · rw [if_neg hend] at hiter
    injection hiter with hiter
    have hstart : Good v.out := by
      rw [← hiter, (insideToken_frame i _).right.right.left] at hgood
      exact hgood
    refine ⟨hstart, ?_⟩
    simp only [iteration, hread' hstart, ne_eq, not_true_eq_false, if_false]
    rw [if_neg hend, hiter]

theorem mainLoop_congr (h : Agree Good n source source')
    (hdelivers : source.Delivers n) (haligned : Aligned i v)
    (hcount : i + count ≤ n) {v' : Vars}
    (hloop : source.mainLoop size count i v = Except.ok v')
    (hgood : Good v'.out) :
    Good v.out ∧ source'.mainLoop size count i v = Except.ok v' := by
  induction count generalizing i v with
  | zero =>
      cases hloop
      exact ⟨hgood, rfl⟩
  | succ count ih =>
      have hfirst : source.Delivers (i + 1) :=
        fun out off hoff => hdelivers out off (by lia)
      have hagree : Agree Good (i + 1) source source' :=
        ⟨h.shorter, fun out off hout hoff => h.same out off hout (by lia)⟩
      rcases iteration_ok hfirst haligned size with ⟨v1, hiter, haligned1⟩
      rw [mainLoop, hiter] at hloop
      rcases ih haligned1 (by lia) hloop with ⟨hgood1, hrest⟩
      rcases iteration_congr hagree hfirst haligned hiter hgood1 with
        ⟨hstart, hiter'⟩
      refine ⟨hstart, ?_⟩
      rw [mainLoop, hiter']
      exact hrest

end Agreement

end Source

end BizzBuzz
end UnixPrograms
