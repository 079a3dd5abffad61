import Mathlib.Data.List.Basic
import UnixPrograms.OperatorStick.Parsing

/-!
# A newline at the end of the file

`my_read` reads one byte less than the file has, so that the commands are the
file without its last byte.  What `main_stick` executes for a file is compared
with what it executes for the file with a newline behind it.
-/

namespace UnixPrograms
namespace OperatorStick
namespace Parsing

open Foundation

/-- The block of a file that is not empty; the byte behind the bytes read is
taken for a NUL. -/
def myRead (content : Bytes) : Bytes :=
  content.take (content.length - 1) ++ [0]

def executed (ending : Ending) (fresh content : Bytes) :
    Option (List (Option (List (Option Bytes)))) :=
  let allCommands := myRead content
  (getComsCount ending fresh allCommands).map
    (fun comdCount =>
      (commandLoop ending comdCount allCommands (some 0)).map
        (fun found => doSubcoms ending found.2 found.1))

def argumentsOf (commands : Bytes) : List (List Bytes) :=
  (segments BAR commands).map (segments SPACE)

def EndsInSeparator (content : Bytes) : Prop :=
  content.getLast? = some BAR ∨
    exists front b, content = front ++ [b, SPACE] ∧ b ≠ BAR

theorem executed_eq (ending : Ending) (fresh : Bytes) {commands : Bytes}
    (h : NoNul commands) (last : UInt8) :
    executed ending fresh (commands ++ [last]) =
      some ((argumentsOf commands).map
        (fun words => some (words.map some ++ [none]))) := by
  have hblock : myRead (commands ++ [last]) = commands ++ [0] := by
    rw [myRead, List.length_append]
    exact congrArg (· ++ [0]) List.take_left
  have hterminated : (0 : UInt8) ∈ commands ++ [0] :=
    List.mem_append_right _ List.mem_cons_self
  have htext : cstr (commands ++ [0]) = commands := cstr_append_zero h []
  have hloop := congrArg (List.map Prod.snd)
    (commandLoop_segments ending hterminated)
  rw [List.map_map, List.map_map, htext] at hloop
  rw [executed, hblock]
  simp only [getComsCount_eq, htext, Option.map_some, argumentsOf, List.map_map]
  exact congrArg some hloop

theorem flatten_argumentsOf (commands : Bytes) :
    (argumentsOf commands).flatten.flatten =
      (commands.filter (fun b => b ≠ BAR)).filter (fun b => b ≠ SPACE) := by
  have hwords : (argumentsOf commands).map List.flatten =
      (segments BAR commands).map (List.filter (fun b => b ≠ SPACE)) := by
    rw [argumentsOf, List.map_map]
    exact List.map_congr_left (fun command _ => flatten_segments SPACE command)
  rw [← flatten_segments BAR, List.filter_flatten, ← hwords,
    List.flatten_flatten]

theorem argumentsOf_bar (commands : Bytes) :
    argumentsOf (commands ++ [BAR]) = argumentsOf commands := by
  rw [argumentsOf, segments_append, segments_nil, List.append_nil]
  rfl

theorem argumentsOf_space {front : Bytes} {b : UInt8} (hb : b ≠ BAR) :
    argumentsOf (front ++ [b] ++ [SPACE]) = argumentsOf (front ++ [b]) := by
  rcases segments_last front hb with ⟨first, last, hlast⟩
  have hnone : segments BAR (front ++ [b]) = first ++ [last ++ []] :=
    hlast [] List.not_mem_nil
  have hspace : segments BAR (front ++ [b] ++ [SPACE]) =
      first ++ [last ++ [SPACE]] := by
    rw [List.append_assoc]
    exact hlast [SPACE] (by decide)
  have hwords : segments SPACE (last ++ [SPACE]) = segments SPACE (last ++ []) := by
    rw [segments_append, segments_nil]
    rw [List.append_nil, List.append_nil]
  rw [argumentsOf, argumentsOf, hnone, hspace, List.map_append, List.map_append]
  exact congrArg (List.append _) (congrArg (fun words => [words]) hwords)

theorem argumentsOf_bar_space {front : Bytes} :
    argumentsOf (front ++ [BAR] ++ [SPACE]) ≠ argumentsOf (front ++ [BAR]) := by
  have hmore : argumentsOf (front ++ [BAR] ++ [SPACE]) =
      argumentsOf front ++ [[]] := by
    rw [List.append_assoc]
    show argumentsOf (front ++ BAR :: [SPACE]) = _
    rw [argumentsOf, segments_append, List.map_append]
    rfl
  rw [hmore, argumentsOf_bar]
  intro hsame
  have hlength := congrArg List.length hsame
  rw [List.length_append] at hlength
  exact absurd hlength (Nat.succ_ne_self _)

theorem argumentsOf_concat_iff (commands : Bytes) (last : UInt8) :
    argumentsOf (commands ++ [last]) = argumentsOf commands <->
      EndsInSeparator (commands ++ [last]) := by
  have hlast : (commands ++ [last]).getLast? = some last :=
    List.getLast?_concat
  have hpenultimate : forall front b, commands ++ [last] = front ++ [b, SPACE] ->
      commands = front ++ [b] ∧ last = SPACE := by
    intro front b h
    have hsplit : commands ++ [last] = (front ++ [b]) ++ [SPACE] := by
      rw [h, List.append_assoc]
      rfl
    rcases List.append_inj' hsplit rfl with ⟨hfront, heq⟩
    injection heq with heq
    exact ⟨hfront, heq⟩
  by_cases hbar : last = BAR
  · rw [hbar]
    exact iff_of_true (argumentsOf_bar commands) (Or.inl (hbar ▸ hlast))
  by_cases hspace : last = SPACE
  · rw [hspace]
    rcases List.eq_nil_or_concat commands with hnil | ⟨front, b, hconcat⟩
    · rw [hnil]
      refine iff_of_false (by decide) ?_
      rintro (hcontra | ⟨front, b, hcontra, _⟩)
      · revert hcontra
        decide
      · have hlength := congrArg List.length hcontra
        rw [List.length_append] at hlength
        simp at hlength
    · rw [List.concat_eq_append] at hconcat
      by_cases hb : b = BAR
      · rw [hconcat, hb]
        refine iff_of_false argumentsOf_bar_space ?_
        rintro (hcontra | ⟨front', b', hcontra, hne⟩)
        · rw [List.getLast?_concat] at hcontra
          revert hcontra
          decide
        · rw [hspace, hconcat, hb] at hpenultimate
          rcases List.append_inj' (hpenultimate front' b' hcontra).left rfl with
            ⟨_, heq⟩
          injection heq with heq
          exact hne heq.symm
      · rw [hconcat]
        refine iff_of_true (argumentsOf_space hb) (Or.inr ⟨front, b, ?_, hb⟩)
        rw [List.append_assoc]
        rfl
  · refine iff_of_false ?_ ?_
    · -- the byte belongs to a word
      intro hsame
      have hbytes := congrArg (fun words => words.flatten.flatten.length) hsame
      simp only [flatten_argumentsOf, List.filter_append, List.length_append] at hbytes
      rw [List.filter_cons_of_pos (by simpa using hbar), List.filter_nil,
        List.filter_cons_of_pos (by simpa using hspace), List.filter_nil] at hbytes
      exact absurd hbytes (Nat.succ_ne_self _)
    · rintro (hcontra | ⟨front, b, hcontra, _⟩)
      · rw [hlast] at hcontra
        injection hcontra with hcontra
        exact hbar hcontra
      · exact hspace (hpenultimate front b hcontra).right

end Parsing
end OperatorStick
end UnixPrograms
