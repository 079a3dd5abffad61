import UnixPrograms.BizzBuzz.FinalNewline

/-!
# Runs of the program one after another

The words that are written are no numbers, so that the output of the program
is a text that it leaves alone; and the lines of a text are rewritten each on
its own.
-/

namespace UnixPrograms
namespace BizzBuzz

open Foundation

/-!
## The words are no numbers
-/

theorem number_word (value : Int) : number (word value) = none := by
  cases hnumber : number (word value) with
  | none => rfl
  | some m => exact absurd (word_head value) (number_head hnumber)

theorem word_noSep {value : Int} {b : UInt8} (h : b ∈ word value) :
    isSep b = false := by
  have hall : (word value).all (fun b => !isSep b) = true := by
    rw [word]
    split
    · rfl
    · split
      · rfl
      · rfl
  have hb := List.all_eq_true.mp hall b h
  rwa [Bool.not_eq_true'] at hb

theorem replaceRun_noSep {run : Bytes}
    (h : forall b, b ∈ run -> isSep b = false) (b : UInt8)
    (hb : b ∈ replaceRun run) : isSep b = false := by
  by_cases hreplaced : exists value, IsReplaced run value
  · rcases hreplaced with ⟨value, hvalue⟩
    rw [hvalue.replaceRun_eq] at hb
    exact word_noSep hb
  · rw [replaceRun_kept hreplaced] at hb
    exact h b hb

theorem replaceRun_replaceRun (run : Bytes) :
    replaceRun (replaceRun run) = replaceRun run := by
  by_cases hreplaced : exists value, IsReplaced run value
  · rcases hreplaced with ⟨value, hvalue⟩
    rw [hvalue.replaceRun_eq]
    apply replaceRun_kept
    rintro ⟨m, hnumber, _⟩
    rw [number_word] at hnumber
    cases hnumber
  · rw [replaceRun_kept hreplaced, replaceRun_kept hreplaced]

theorem rewrite_rewrite (content : Bytes) :
    rewrite (rewrite content) = rewrite content := by
  have hruns := splitRuns_separated isSep content
  have hmapped := hruns.mapRuns (fun run hrun => @replaceRun_noSep run hrun)
  have hjoin := @rewrite_joinRuns (mapRuns replaceRun (splitRuns isSep content)).1
    (mapRuns replaceRun (splitRuns isSep content)).2 hmapped
  have hagain := hruns.mapRuns_mapRuns (fun run _ => replaceRun_replaceRun run)
  rw [rewrite]
  exact hjoin.trans (congrArg joinRuns hagain)

/-!
## Two runs
-/

theorem output_nil (temp : UInt8) : output temp [] = some [10] := rfl

/-- Whatever the file is, a run over the output of a run writes that output
once more. -/
theorem output_of_output (temp temp' : UInt8) {content out : Bytes}
    (h : output temp content = some out) : output temp' out = some out := by
  cases content with
  | nil =>
      rw [output_nil] at h
      cases h
      exact output_newline temp' []
  | cons b content =>
      rw [output_eq_dropLast temp (List.cons_ne_nil b content)] at h
      injection h with h
      rw [← h, output_newline, rewrite_rewrite]

theorem output_of_output_words :
    output 7 (text "bizzbuzz bizz 4\n".toList) =
      some (text "bizzbuzz bizz 4\n".toList) :=
  @output_of_output 0 7 (text "15 -9 4".toList ++ [10]) _
    ((output_newline 0 (text "15 -9 4".toList)).trans (by decide +kernel))

/-- A text behind a line is rewritten as if it stood alone. -/
theorem output_line_append (temp temp' temp'' : UInt8) {content : Bytes}
    (h : content ≠ []) (line : Bytes) :
    output temp (line ++ 10 :: content) =
      (output temp' (line ++ [10])).bind (fun first =>
        (output temp'' content).map (fun rest => first ++ rest)) := by
  have hwhole : (line ++ 10 :: content).dropLast =
      line ++ 10 :: content.dropLast := by
    rw [List.dropLast_append_of_ne_nil (List.cons_ne_nil 10 content),
      List.dropLast_cons_of_ne_nil h]
  rw [output_eq_dropLast temp (by simp), hwhole,
    rewrite_append_sep (by decide), output_newline,
    output_eq_dropLast temp'' h]
  simp

theorem output_line_append_words :
    output 0 (text "9".toList ++ 10 :: text "10 x".toList) =
      some (text "bizz\nbuzz \n".toList) :=
  (output_line_append 0 0 0 (by decide +kernel) (text "9".toList)).trans
    (by decide +kernel)

end BizzBuzz
end UnixPrograms
