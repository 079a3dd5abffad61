import UnixPrograms.BizzBuzz.Token

/-!
# The loop over the file

The loop invariant ties the offset and the variables to the symbols read so
far: what has been written, together with the separator held back, is the
rewriting of everything before the current token.
-/

namespace UnixPrograms
namespace BizzBuzz

open Foundation

/-- What has been written, and the separator that comes next. -/
def emitted (v : Vars) : Bytes :=
  v.writePrevSep.out

theorem emitted_eq (v : Vars) :
    emitted v = v.out ++ (if v.prevSep ≠ 48 then [v.prevSep] else []) := by
  rw [emitted, Vars.writePrevSep]
  split
  · rfl
  · rw [List.append_nil]

/-- The source is split into what is behind the last separator, the current
token, and what is still to be read. -/
structure Scan (src : Bytes) (v : Vars) (done run rest : Bytes) : Prop where
  whole : src = done ++ run ++ rest
  off : v.off = done.length + run.length
  token : Token v done.length run
  noSep : forall b, b ∈ run -> isSep b = false
  begin : run = [] -> done = [] ∨ isSep v.temp = true
  inside : forall b, run.getLast? = some b -> v.temp = b

theorem scan_start (temp : UInt8) (src : Bytes) :
    Scan src (Vars.start temp) [] [] src where
  whole := rfl
  off := rfl
  token := Token.empty rfl rfl rfl rfl
  noSep := by simp
  begin := fun _ => Or.inl rfl
  inside := by simp

theorem isSep_iff {b : UInt8} : isSep b = true <-> b = 32 ∨ b = 10 ∨ b = 9 := by
  simp [isSep, or_assoc]

/-!
## Reading and copying
-/

theorem read_eq {src before after : Bytes} {b : UInt8} {v : Vars}
    (hsrc : src = before ++ b :: after) (hoff : v.off = before.length) :
    v.read src = (1, { v with temp := b, off := v.off + 1 }) := by
  have hget : src[v.off]? = some b := by
    rw [hsrc, hoff, List.getElem?_append_right (Nat.le_refl _), Nat.sub_self]
    rfl
  rw [Vars.read, hget]

theorem copy_eq {src before piece after : Bytes} {v : Vars}
    (hsrc : src = before ++ piece ++ after) (hoff : v.off = before.length) :
    exists temp, Vars.copy src piece.length v =
      { v with
        temp := temp
        off := before.length + piece.length
        out := v.out ++ piece } := by
  induction piece generalizing before v with
  | nil => exact ⟨v.temp, by simp [Vars.copy, ← hoff]⟩
  | cons b piece ih =>
      have hread : v.read src = (1, { v with temp := b, off := v.off + 1 }) :=
        read_eq (show src = before ++ b :: (piece ++ after) by simp [hsrc]) hoff
      rcases @ih (before ++ [b])
        (({ v with temp := b, off := v.off + 1 } : Vars).write [b])
        (by simp [hsrc]) (by simp [Vars.write, hoff]) with ⟨temp, hcopy⟩
      refine ⟨temp, ?_⟩
      rw [List.length_cons, Vars.copy, hread]
      change Vars.copy src piece.length
        (({ v with temp := b, off := v.off + 1 } : Vars).write [b]) = _
      rw [hcopy]
      simp [Vars.write, Nat.add_assoc, Nat.add_comm 1]

/-!
## The end of a token
-/

theorem writePrevSep_eq (v : Vars) :
    v.writePrevSep = { v with out := emitted v } := by
  rw [emitted, Vars.writePrevSep]
  split
  · rfl
  · rfl

def signOf (v : Vars) : Bytes :=
  if v.negative = true then [45] else []

theorem Token.sign_append {v : Vars} {start : Nat} {run : Bytes}
    (h : Token v start run) :
    signOf v ++ body run = run ∧ v.prevOff = start + (signOf v).length := by
  have hrun : signOf v ++ body run = run := by
    conv => rhs; rw [← sign_body run]
    rw [signOf]
    simp only [h.negative]
  refine ⟨hrun, ?_⟩
  have hlength := congrArg List.length hrun
  rw [List.length_append] at hlength
  have hprevOff := h.prevOff
  lia

theorem write_sign (v : Vars) :
    (if v.negative = true then v.write [45] else v) =
      { v with out := v.out ++ signOf v } := by
  rw [signOf]
  split
  · rfl
  · rw [List.append_nil]

theorem copyToken_eq {src done run rest : Bytes} {b : UInt8} {v : Vars}
    (hsrc : src = done ++ run ++ b :: rest) (h : Token v done.length run) :
    copyToken src (done.length + run.length) v =
      { v with
        temp := b
        off := done.length + run.length + 1
        out := emitted v ++ run } := by
  rcases h.sign_append with ⟨hrun, hprevOff⟩
  have hlength := congrArg List.length hrun
  rw [List.length_append] at hlength
  have hcount : done.length + run.length - v.prevOff = (body run).length := by
    lia
  have hpiece : src = (done ++ signOf v) ++ body run ++ b :: rest := by
    rw [hsrc, List.append_assoc done (signOf v), hrun]
  rcases @copy_eq src (done ++ signOf v) (body run) (b :: rest)
    { v with off := v.prevOff, out := emitted v ++ signOf v } hpiece
    (by simp [hprevOff]) with ⟨temp, hcopy⟩
  have hemitted : emitted { v with off := v.prevOff } = emitted v := by
    rw [emitted_eq, emitted_eq]
  have hread := @read_eq src (done ++ run) rest b
    { v with
      temp := temp
      off := (done ++ signOf v).length + (body run).length
      out := emitted v ++ signOf v ++ body run } hsrc (by simp; lia)
  rw [copyToken, writePrevSep_eq, write_sign, hemitted]
  change (Vars.read src
    (Vars.copy src (done.length + run.length - v.prevOff)
      { v with off := v.prevOff, out := emitted v ++ signOf v })).2 = _
  rw [hcount, hcopy, hread, List.append_assoc, hrun]
  simp
  lia

theorem endOfToken_eq {src done run rest : Bytes} {b : UInt8} {v : Vars}
    (hsrc : src = done ++ run ++ b :: rest) (h : Token v done.length run)
    (htemp : v.temp = b) (hoff : v.off = done.length + run.length + 1) :
    endOfToken src (done.length + run.length) v =
      { v with
        out := emitted v ++ replaceRun run
        prevOff := done.length + run.length + 1
        lastIs5 := false
        sum := -3
        checkIsNum := true
        negative := false
        prevSep := b } := by
  have hcopy := copyToken_eq hsrc h
  cases hnumber : number run with
  | none =>
      rcases h.not_number hnumber with ⟨hfive, hthree⟩
      have hboth : ¬ (v.lastIs5 = true ∧ v.sum = 0 ∧ v.checkIsNum = true) :=
        fun hc => hthree hc.right
      rw [endOfToken, if_neg hboth, if_neg hfive, if_neg hthree, hcopy,
        replaceRun, hnumber, ← htemp, ← hoff]
  | some value =>
      rcases h.divisors hnumber with ⟨hcheck, hfive, hthree⟩
      have hfifteen : 15 ∣ value <-> 5 ∣ value ∧ 3 ∣ value := by
        lia
      have hwrite : forall word : Bytes,
          v.writePrevSep.write word = { v with out := emitted v ++ word } := by
        intro word
        rw [writePrevSep_eq, Vars.write]
      rw [endOfToken, replaceRun, hnumber]
      simp only [hcheck, hfive, hthree, and_true, hfifteen]
      by_cases h5 : 5 ∣ value
      · by_cases h3 : 3 ∣ value
        · simp only [h5, h3, and_self, if_true, hwrite, htemp, hcheck]
        · simp only [h5, h3, and_false, if_false, if_true, hwrite, htemp, hcheck]
      · by_cases h3 : 3 ∣ value
        · simp only [h5, h3, false_and, if_false, if_true, hwrite, htemp, hcheck]
        · simp only [h5, h3, false_and, if_false, hcopy, htemp, hoff, hcheck]

/-!
## One iteration
-/

def readByte (v : Vars) (b : UInt8) : Vars :=
  { v with prevSymbol := v.temp, temp := b, off := v.off + 1 }

theorem iteration_eq {src done run rest : Bytes} {b : UInt8} {v : Vars}
    (h : Scan src v done run (b :: rest)) :
    iteration src (done.length + run.length) v =
      some
        (if isSep b = true ∨ rest = [] then
          endOfToken src (done.length + run.length) (readByte v b)
        else
          insideToken (done.length + run.length) (readByte v b)) := by
  have hread := @read_eq src (done ++ run) rest b
    { v with prevSymbol := v.temp } h.whole (by simp [h.off])
  have hlength : src.length = done.length + run.length + (rest.length + 1) := by
    rw [h.whole]
    simp [Nat.add_assoc]
  have hlast : done.length + run.length = src.length - 1 <-> rest = [] := by
    rw [← List.length_eq_zero_iff, hlength]
    lia
  simp only [iteration, hread, ne_eq, not_true_eq_false, if_false, hlast,
    isSep_iff]
  by_cases hend : b = 32 ∨ rest = [] ∨ b = 10 ∨ b = 9
  · rw [if_pos hend, if_pos (by tauto)]
    rfl
  · rw [if_neg hend, if_neg (by tauto)]
    rfl

theorem iteration_sep {src done run rest : Bytes} {b : UInt8} {v : Vars}
    (h : Scan src v done run (b :: rest)) (hb : isSep b = true) :
    exists v', iteration src (done.length + run.length) v = some v' ∧
      Scan src v' (done ++ run ++ [b]) [] rest ∧
      v'.out = emitted v ++ replaceRun run ∧ v'.prevSep = b := by
  have htoken : Token (readByte v b) done.length run :=
    h.token.congr rfl rfl rfl rfl rfl
  have hend := endOfToken_eq h.whole htoken rfl (by simp [readByte, h.off])
  rw [iteration_eq h, if_pos (Or.inl hb), hend]
  refine ⟨_, rfl, ?_, ?_, rfl⟩
  · have hstart : (done ++ run ++ [b]).length = done.length + run.length + 1 := by
      simp [Nat.add_assoc]
    constructor
    case whole => rw [h.whole]; simp
    case off => rw [hstart]; exact congrArg Nat.succ h.off
    case token =>
      rw [hstart]
      exact Token.empty rfl rfl rfl rfl
    case noSep => simp
    case begin => exact fun _ => Or.inr hb
    case inside => simp
  · change emitted (readByte v b) ++ replaceRun run = _
    rw [emitted_eq, emitted_eq]
    rfl

theorem insideToken_frame (i : Nat) (v : Vars) :
    (insideToken i v).temp = v.temp ∧ (insideToken i v).off = v.off ∧
      (insideToken i v).out = v.out ∧ (insideToken i v).prevSep = v.prevSep := by
  rw [insideToken]
  split
  · split
    · exact ⟨rfl, rfl, rfl, rfl⟩
    · exact ⟨rfl, rfl, rfl, rfl⟩
  · split
    · exact ⟨rfl, rfl, rfl, rfl⟩
    · exact ⟨rfl, rfl, rfl, rfl⟩

theorem Scan.begins_iff {src done run rest : Bytes} {v : Vars}
    (h : Scan src v done run rest) :
    run = [] <-> v.temp = 32 ∨ done.length + run.length = 0 ∨
      v.temp = 10 ∨ v.temp = 9 := by
  constructor
  · intro hnil
    rcases h.begin hnil with hdone | hsep
    · rw [hdone, hnil]
      exact Or.inr (Or.inl rfl)
    · rcases isSep_iff.mp hsep with hspace | hnewline | htab
      · exact Or.inl hspace
      · exact Or.inr (Or.inr (Or.inl hnewline))
      · exact Or.inr (Or.inr (Or.inr htab))
  · intro hbegin
    by_contra hrun
    have hlast := h.inside _ (List.getLast?_eq_some_getLast hrun)
    have hno := h.noSep _ (List.getLast_mem hrun)
    rw [← hlast] at hno
    have hpos := List.length_pos_iff.mpr hrun
    have hsep : isSep v.temp = true := by
      rw [isSep_iff]
      rcases hbegin with hspace | hzero | hnewline | htab
      · exact Or.inl hspace
      · lia
      · exact Or.inr (Or.inl hnewline)
      · exact Or.inr (Or.inr htab)
    rw [hno] at hsep
    cases hsep

theorem iteration_symbol {src done run rest : Bytes} {b : UInt8} {v : Vars}
    (h : Scan src v done run (b :: rest)) (hb : isSep b = false)
    (hrest : rest ≠ []) :
    exists v', iteration src (done.length + run.length) v = some v' ∧
      Scan src v' done (run ++ [b]) rest ∧
      v'.out = v.out ∧ v'.prevSep = v.prevSep := by
  have htoken : Token (readByte v b) done.length run :=
    h.token.congr rfl rfl rfl rfl rfl
  have hinside : ¬ (isSep b = true ∨ rest = []) := by
    rw [hb]
    simp [hrest]
  rcases insideToken_frame (done.length + run.length) (readByte v b) with
    ⟨htemp, hoff, hout, hprevSep⟩
  rw [iteration_eq h, if_neg hinside]
  refine ⟨_, rfl, ?_, hout, hprevSep⟩
  constructor
  case whole => rw [h.whole]; simp
  case off =>
    rw [hoff, List.length_append, ← Nat.add_assoc, ← h.off]
    rfl
  case token => exact htoken.inside h.begins_iff
  case noSep =>
    intro c hc
    rcases List.mem_append.mp hc with hold | hnew
    · exact h.noSep c hold
    · rw [List.mem_singleton.mp hnew]
      exact hb
  case begin =>
    intro hnil
    cases (List.append_eq_nil_iff.mp hnil).right
  case inside =>
    intro c hc
    rw [List.getLast?_concat] at hc
    injection hc with hc
    rw [htemp, ← hc]
    rfl

/-!
## The whole loop

The source is split into what is behind the last separator, the current token and
what is still to be read.  The induction is on the bytes that are left.
-/

theorem emitted_sep {v : Vars} (h : isSep v.prevSep = true) :
    emitted v = v.out ++ [v.prevSep] := by
  have hmark : v.prevSep ≠ 48 := by
    intro heq
    rw [heq] at h
    cases h
  rw [emitted_eq, if_pos hmark]

/-- The text before the current token has been rewritten, except for the
separator at its end. -/
structure Settled (v : Vars) (done : Bytes) : Prop where
  out : v.out = rewrite done.dropLast
  none : done = [] -> v.prevSep = 48
  last : forall b, done.getLast? = some b -> isSep b = true ∧ v.prevSep = b

theorem Settled.emitted_append {v : Vars} {done run : Bytes}
    (h : Settled v done) (hrun : forall b, b ∈ run -> isSep b = false) :
    emitted v ++ replaceRun run = rewrite (done ++ run) := by
  rcases List.eq_nil_or_concat' done with hnil | ⟨init, b, hdone⟩
  · have hout := h.out
    rw [hnil] at hout
    rw [emitted_eq, if_neg (fun hne => hne (h.none hnil)), hout, hnil,
      List.nil_append, rewrite_run hrun]
    rfl
  · have hlast := h.last b (by rw [hdone, List.getLast?_concat])
    have hout := h.out
    have hprevSep : isSep v.prevSep = true := by
      rw [hlast.right]
      exact hlast.left
    rw [hdone, List.dropLast_concat] at hout
    rw [emitted_sep hprevSep, hout, hlast.right, hdone, List.append_assoc,
      List.append_assoc]
    exact (congrArg _ (congrArg _ (rewrite_run hrun).symm)).trans
      (rewrite_append_sep hlast.left init run).symm

theorem mainLoop_settled {src rest : Bytes} {count : Nat} :
    forall {v : Vars} {done run : Bytes}, Scan src v done run rest ->
      Settled v done -> count < rest.length ->
      exists v' done' run' rest', Scan src v' done' run' rest' ∧
        Settled v' done' ∧ rest'.length + count = rest.length ∧
        forall more,
          mainLoop src (count + more) (done.length + run.length) v =
            mainLoop src more (done'.length + run'.length) v' := by
  induction count generalizing rest with
  | zero =>
      intro v done run h hsettled _
      refine ⟨v, done, run, rest, h, hsettled, rfl, fun more => ?_⟩
      rw [Nat.zero_add]
  | succ count ih =>
      intro v done run h hsettled hcount
      cases rest with
      | nil => cases hcount
      | cons b rest =>
          have hrest : count < rest.length := Nat.lt_of_succ_lt_succ hcount
          cases hb : isSep b with
          | true =>
              rcases iteration_sep h hb with ⟨v1, hiter, hscan, hout, hprevSep⟩
              have hsettled1 : Settled v1 (done ++ run ++ [b]) := by
                constructor
                case out =>
                  rw [hout, hsettled.emitted_append h.noSep,
                    List.dropLast_concat]
                case none =>
                  intro hnil
                  cases (List.append_eq_nil_iff.mp hnil).right
                case last =>
                  intro c hc
                  rw [List.getLast?_concat] at hc
                  injection hc with hc
                  rw [← hc]
                  exact ⟨hb, hprevSep⟩
              rcases ih hscan hsettled1 hrest with
                ⟨v', done', run', rest', hscan', hsettled', hlength, hloop⟩
              have hstart : (done ++ run ++ [b]).length + ([] : Bytes).length =
                  done.length + run.length + 1 := by
                simp [Nat.add_assoc]
              rw [hstart] at hloop
              refine ⟨v', done', run', rest', hscan', hsettled',
                congrArg Nat.succ hlength, fun more => ?_⟩
              rw [Nat.add_right_comm, mainLoop, hiter]
              exact hloop more
          | false =>
              have hne : rest ≠ [] := List.ne_nil_of_length_pos (by lia)
              rcases iteration_symbol h hb hne with
                ⟨v1, hiter, hscan, hout, hprevSep⟩
              have hsettled1 : Settled v1 done := by
                constructor
                case out => rw [hout, hsettled.out]
                case none => rw [hprevSep]; exact hsettled.none
                case last => rw [hprevSep]; exact hsettled.last
              rcases ih hscan hsettled1 hrest with
                ⟨v', done', run', rest', hscan', hsettled', hlength, hloop⟩
              have hstart : done.length + (run ++ [b]).length =
                  done.length + run.length + 1 := by
                simp [Nat.add_assoc]
              rw [hstart] at hloop
              refine ⟨v', done', run', rest', hscan', hsettled',
                congrArg Nat.succ hlength, fun more => ?_⟩
              rw [Nat.add_right_comm, mainLoop, hiter]
              exact hloop more

theorem settled_start (temp : UInt8) : Settled (Vars.start temp) [] where
  out := rfl
  none := fun _ => rfl
  last := by simp

/-- The last byte ends the last token without belonging to it, whatever it
is. -/
theorem output_eq_dropLast (temp : UInt8) {content : Bytes}
    (h : content ≠ []) :
    output temp content = some (rewrite content.dropLast ++ [10]) := by
  have hpos := List.length_pos_iff.mpr h
  rcases mainLoop_settled (scan_start temp content) (settled_start temp)
    (Nat.sub_lt hpos Nat.one_pos) with
    ⟨v, done, run, rest, hscan, hsettled, hlength, hloop⟩
  have hone : rest.length = 1 := by
    lia
  rcases List.length_eq_one_iff.mp hone with ⟨b, hrest⟩
  rw [hrest] at hscan
  have htoken : Token (readByte v b) done.length run :=
    hscan.token.congr rfl rfl rfl rfl rfl
  have hemitted : emitted (readByte v b) = emitted v := by
    rw [emitted_eq, emitted_eq]
    rfl
  have hend := endOfToken_eq hscan.whole htoken rfl
    (by simp [readByte, hscan.off])
  have hlast : mainLoop content content.length 0 (Vars.start temp) =
      some (endOfToken content (done.length + run.length)
        (readByte v b)) := by
    have hstep := hloop 1
    rw [Nat.sub_add_cancel hpos, mainLoop, iteration_eq hscan,
      if_pos (Or.inr rfl)] at hstep
    exact hstep
  have hcontent : content.dropLast = done ++ run := by
    rw [hscan.whole, List.dropLast_concat]
  rw [output, hlast, hend, Option.map_some, hcontent,
    ← hsettled.emitted_append hscan.noSep, hemitted]

/-- A file that ends in a newline is rewritten, whatever the byte at `temp`
was before the loop. -/
theorem output_eq_rewrite (temp : UInt8) {content : Bytes}
    (h : content.getLast? = some 10) :
    output temp content = some (rewrite content) := by
  rcases List.getLast?_eq_some_iff.mp h with ⟨init, heq⟩
  rw [heq, output_eq_dropLast temp (by simp), List.dropLast_concat,
    rewrite_append_sep (by decide)]
  rfl

theorem output_eq_rewrite_words :
    output 0 (text ['1', '5', '\t', '-', '9', ' ', '4', '\n']) =
      some (text ['b', 'i', 'z', 'z', 'b', 'u', 'z', 'z', '\t', 'b', 'i', 'z',
        'z', ' ', '4', '\n']) := by
  rw [output_eq_rewrite 0 (by decide)]
  decide

end BizzBuzz
end UnixPrograms
