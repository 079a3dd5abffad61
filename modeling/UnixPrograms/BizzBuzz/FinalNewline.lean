import UnixPrograms.BizzBuzz.Loop

/-!
# The end of the file

The last byte of the file is taken for a separator, whatever it is.  Without a
newline at the end the last symbol is therefore lost.
-/

namespace UnixPrograms
namespace BizzBuzz

open Foundation

/-!
## The last token
-/

def lastToken (content : Bytes) : Bytes :=
  content.rtakeWhile (fun b => !isSep b)

theorem lastToken_noSep {content : Bytes} {b : UInt8}
    (h : b ∈ lastToken content) : isSep b = false := by
  have hno := List.mem_rtakeWhile_imp h
  rwa [Bool.not_eq_true'] at hno

theorem exists_front (content : Bytes) :
    exists front,
      content = front ++ lastToken content ∧
      exists first : Bytes, forall run : Bytes,
        (forall b, b ∈ run -> isSep b = false) ->
          rewrite (front ++ run) = first ++ replaceRun run := by
  refine ⟨content.rdropWhile (fun b => !isSep b),
    List.rdropWhile_append_rtakeWhile.symm, ?_⟩
  generalize hfront : content.rdropWhile (fun b => !isSep b) = front
  rcases List.eq_nil_or_concat' front with hnil | ⟨init, b, heq⟩
  · refine ⟨[], fun run hrun => ?_⟩
    rw [hnil]
    exact rewrite_run hrun
  · have hsep : isSep b = true := by
      have hlast := List.rdropWhile_last_not (fun b => !isSep b) content
        (by rw [hfront, heq]; simp)
      simpa [hfront, heq] using hlast
    refine ⟨rewrite init ++ [b], fun run hrun => ?_⟩
    rw [heq, List.append_assoc, List.append_assoc]
    exact (rewrite_append_sep hsep init run).trans
      (by rw [rewrite_run hrun]; rfl)

theorem output_newline (temp : UInt8) (content : Bytes) :
    output temp (content ++ [10]) = some (rewrite content ++ [10]) := by
  rw [output_eq_dropLast temp (by simp), List.dropLast_concat]

/-!
## The words
-/

def word (value : Int) : Bytes :=
  if 15 ∣ value then BIZZBUZZ else if 5 ∣ value then BUZZ else BIZZ

def IsReplaced (run : Bytes) (value : Int) : Prop :=
  number run = some value ∧ (3 ∣ value ∨ 5 ∣ value)

theorem IsReplaced.replaceRun_eq {run : Bytes} {value : Int}
    (h : IsReplaced run value) : replaceRun run = word value := by
  rw [replaceRun, h.left, word]
  rcases h.right with hthree | hfive
  · simp only [if_pos hthree]
  · simp only [if_pos hfive]

theorem replaceRun_kept {run : Bytes}
    (h : ¬ exists value, IsReplaced run value) : replaceRun run = run := by
  rw [replaceRun]
  cases hnumber : number run with
  | none => rfl
  | some value =>
      have hno : ¬ (3 ∣ value ∨ 5 ∣ value) :=
        fun hdvd => h ⟨value, hnumber, hdvd⟩
      have hthree : ¬ 3 ∣ value := fun hdvd => hno (Or.inl hdvd)
      have hfive : ¬ 5 ∣ value := fun hdvd => hno (Or.inr hdvd)
      have hfifteen : ¬ 15 ∣ value := by
        lia
      simp only [if_neg hfifteen, if_neg hfive, if_neg hthree]

theorem word_head (value : Int) : (word value).head? = some 98 := by
  rw [word]
  split
  · rfl
  · split
    · rfl
    · rfl

theorem number_head {run : Bytes} {value : Int} (h : number run = some value) :
    run.head? ≠ some 98 := by
  intro hhead
  have hsign : run.head? ≠ some 45 := by
    rw [hhead]
    decide
  have hbody : body run = run := if_neg hsign
  have hno : (body run).all isDigit = false := by
    rw [hbody, List.eq_cons_of_mem_head? hhead]
    rfl
  rw [number_eq_none (Or.inr hno)] at h
  cases h

theorem word_inj {m n : Int} (hm : 3 ∣ m ∨ 5 ∣ m) (hn : 3 ∣ n ∨ 5 ∣ n) :
    word m = word n <-> (3 ∣ m <-> 3 ∣ n) ∧ (5 ∣ m <-> 5 ∣ n) := by
  have hfifteen : forall value : Int, 15 ∣ value <-> 3 ∣ value ∧ 5 ∣ value := by
    intro value
    lia
  have hwords : BIZZBUZZ ≠ BUZZ ∧ BIZZBUZZ ≠ BIZZ ∧ BUZZ ≠ BIZZ := by
    decide
  simp only [word, hfifteen]
  by_cases hm3 : 3 ∣ m <;> by_cases hm5 : 5 ∣ m <;>
    by_cases hn3 : 3 ∣ n <;> by_cases hn5 : 5 ∣ n <;>
    simp_all [hwords.left.symm, hwords.right.left.symm, hwords.right.right.symm]

/-- The last token and what is left of it without its last byte are numbers
that are replaced by the same word. -/
def SameWord (token : Bytes) : Prop :=
  exists m n, number token.dropLast = some m ∧ number token = some n ∧
    (3 ∣ n ∨ 5 ∣ n) ∧ (3 ∣ m <-> 3 ∣ n) ∧ (5 ∣ m <-> 5 ∣ n)

theorem head_dropLast {token : Bytes} {b : UInt8}
    (h : token.dropLast.head? = some b) : token.head? = some b := by
  cases token with
  | nil => exact h
  | cons c token =>
      cases token with
      | nil => cases h
      | cons d token => exact h

theorem replaceRun_dropLast_iff {token : Bytes} (htoken : token ≠ []) :
    replaceRun token.dropLast = replaceRun token <-> SameWord token := by
  by_cases hshort : exists m, IsReplaced token.dropLast m
  · rcases hshort with ⟨m, hm⟩
    by_cases hlong : exists n, IsReplaced token n
    · rcases hlong with ⟨n, hn⟩
      rw [hm.replaceRun_eq, hn.replaceRun_eq, word_inj hm.right hn.right]
      constructor
      · intro hsame
        exact ⟨m, n, hm.left, hn.left, hn.right, hsame⟩
      · rintro ⟨m', n', hm', hn', _, hsame⟩
        cases hm.left.symm.trans hm'
        cases hn.left.symm.trans hn'
        exact hsame
    · rw [hm.replaceRun_eq, replaceRun_kept hlong]
      constructor
      · intro hsame
        have hhead := word_head m
        have hne : token.dropLast ≠ [] := by
          intro hnil
          have hnumber := hm.left
          rw [hnil] at hnumber
          cases hnumber
        have hfirst := List.head?_eq_some_head hne
        rw [hsame, head_dropLast hfirst, ← hfirst] at hhead
        exact absurd hhead (number_head hm.left)
      · rintro ⟨m', n', _, hn', hdvd, _⟩
        exact absurd ⟨n', hn', hdvd⟩ hlong
  · have hkept := replaceRun_kept hshort
    have hno : ¬ SameWord token := by
      rintro ⟨m, n, hm, hn, hdvd, hthree, hfive⟩
      refine hshort ⟨m, hm, ?_⟩
      rw [hthree, hfive]
      exact hdvd
    refine iff_of_false ?_ hno
    intro hsame
    rw [hkept] at hsame
    by_cases hlong : exists n, IsReplaced token n
    · rcases hlong with ⟨n, hn⟩
      rw [hn.replaceRun_eq] at hsame
      have hhead := word_head n
      rw [← hsame] at hhead
      exact number_head hn.left (head_dropLast hhead)
    · rw [replaceRun_kept hlong] at hsame
      have hlength := congrArg List.length hsame
      rw [List.length_dropLast] at hlength
      have hpos := List.length_pos_iff.mpr htoken
      lia

/-- The newline at the end of the file makes no difference exactly when the
last token and the token without its last byte are replaced by the same
word. -/
theorem final_newline_iff (temp temp' : UInt8) {content : Bytes}
    (h : exists b, content.getLast? = some b ∧ isSep b = false) :
    output temp content = output temp' (content ++ [10]) <->
      SameWord (lastToken content) := by
  have htoken : lastToken content ≠ [] := by
    rcases h with ⟨b, hlast, hno⟩
    rw [List.getLast?_eq_some_iff] at hlast
    rcases hlast with ⟨init, heq⟩
    rw [heq, lastToken, List.rtakeWhile_concat, if_pos (by simp [hno])]
    simp
  have hne : content ≠ [] := by
    rcases h with ⟨b, hlast, _⟩
    intro hnil
    rw [hnil] at hlast
    cases hlast
  rcases exists_front content with ⟨front, hcontent, first, hrewrite⟩
  have hshort : content.dropLast = front ++ (lastToken content).dropLast := by
    conv => lhs; rw [hcontent]
    exact List.dropLast_append_of_ne_nil htoken
  have hwhole := hrewrite (lastToken content) (fun b => lastToken_noSep)
  rw [← hcontent] at hwhole
  rw [output_eq_dropLast temp hne, output_newline, hshort,
    hrewrite _ (fun b hb => lastToken_noSep (List.dropLast_subset _ hb)),
    hwhole, Option.some_inj, List.append_left_inj, List.append_right_inj]
  exact replaceRun_dropLast_iff htoken

theorem final_newline_iff_33 :
    output 0 (text ['3', '3']) = output 0 (text ['3', '3'] ++ [10]) :=
  (final_newline_iff 0 0 ⟨51, rfl, rfl⟩).mpr
    ⟨3, 33, rfl, rfl, Or.inl (by decide), by decide, by decide⟩

theorem last_symbol_lost :
    output 0 (text ['1', '5']) = some (text ['1', '\n']) ∧
      output 0 (text ['1', '5'] ++ [10]) = some (BIZZBUZZ ++ [10]) ∧
      ¬ forall content : Bytes,
        (exists b, content.getLast? = some b ∧ isSep b = false) ->
          output 0 content = output 0 (content ++ [10]) := by
  refine ⟨by decide, by decide, ?_⟩
  intro hclaim
  have heq := hclaim (text ['1', '5']) ⟨53, rfl, rfl⟩
  revert heq
  decide

end BizzBuzz
end UnixPrograms
