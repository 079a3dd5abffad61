import UnixPrograms.BizzBuzz.Code
import UnixPrograms.Foundation.Decimal
import UnixPrograms.Foundation.Separated

/-!
# The rewriting of a text

What the program is for: every run of symbols between separators that is a
decimal number is replaced according to its divisors.
-/

namespace UnixPrograms
namespace BizzBuzz

open Foundation

def body (run : Bytes) : Bytes :=
  if run.head? = some 45 then run.tail else run

/-- The number that a run denotes: an optional minus sign and one or more
decimal digits. -/
def number (run : Bytes) : Option Int :=
  if body run ≠ [] ∧ (body run).all isDigit = true then
    if run.head? = some 45 then some (-(digitsValue (body run) : Int))
    else some (digitsValue (body run) : Int)
  else
    none

def replaceRun (run : Bytes) : Bytes :=
  match number run with
  | none => run
  | some value =>
      if 15 ∣ value then BIZZBUZZ
      else if 5 ∣ value then BUZZ
      else if 3 ∣ value then BIZZ
      else run

def rewrite (content : Bytes) : Bytes :=
  joinRuns (mapRuns replaceRun (splitRuns isSep content))

theorem rewrite_joinRuns {first : Bytes} {rest : List (UInt8 × Bytes)}
    (h : IsSeparated isSep (first, rest)) :
    rewrite (joinRuns (first, rest)) =
      joinRuns (mapRuns replaceRun (first, rest)) := by
  rw [rewrite, splitRuns_joinRuns h]

/-!
## A text in two parts
-/

theorem rewrite_append_sep {b : UInt8} (h : isSep b = true)
    (front content : Bytes) :
    rewrite (front ++ b :: content) = rewrite front ++ b :: rewrite content := by
  have hfront := splitRuns_separated isSep front
  have hcontent := splitRuns_separated isSep content
  have hwhole : joinRuns ((splitRuns isSep front).1,
      (splitRuns isSep front).2 ++
        (b, (splitRuns isSep content).1) :: (splitRuns isSep content).2) =
      front ++ b :: content := by
    have hjoinFront := joinRuns_splitRuns isSep front
    have hjoinContent := joinRuns_splitRuns isSep content
    rw [joinRuns] at hjoinFront hjoinContent ⊢
    rw [List.flatMap_append, ← List.append_assoc, hjoinFront,
      List.flatMap_cons, List.cons_append, hjoinContent]
  have hseparated : IsSeparated isSep ((splitRuns isSep front).1,
      (splitRuns isSep front).2 ++
        (b, (splitRuns isSep content).1) :: (splitRuns isSep content).2) := by
    constructor
    case first => exact hfront.first
    case seps =>
      intro part hpart
      rcases List.mem_append.mp hpart with hin | hin
      · exact hfront.seps part hin
      · rcases List.mem_cons.mp hin with heq | htail
        · rw [heq]
          exact h
        · exact hcontent.seps part htail
    case rest =>
      intro part hpart
      rcases List.mem_append.mp hpart with hin | hin
      · exact hfront.rest part hin
      · rcases List.mem_cons.mp hin with heq | htail
        · rw [heq]
          exact hcontent.first
        · exact hcontent.rest part htail
  rw [← hwhole, rewrite_joinRuns hseparated]
  simp only [rewrite, mapRuns, joinRuns, List.map_append, List.map_cons,
    List.flatMap_append, List.flatMap_cons, List.append_assoc,
    List.cons_append]

theorem rewrite_run {run : Bytes} (h : forall b, b ∈ run -> isSep b = false) :
    rewrite run = replaceRun run := by
  have hsplit := splitRuns_append h []
  rw [List.append_nil] at hsplit
  rw [rewrite, hsplit]
  simp [splitRuns, mapRuns, joinRuns]

/-!
## Numbers
-/

theorem number_eq_some {run : Bytes} (hbody : body run ≠ [])
    (hdigits : (body run).all isDigit = true) :
    exists value, number run = some value ∧
      forall d : Int, d ∣ value <-> d ∣ (digitsValue (body run) : Int) := by
  rw [number, if_pos ⟨hbody, hdigits⟩]
  by_cases hsign : run.head? = some 45
  · rw [if_pos hsign]
    exact ⟨_, rfl, fun d => Int.dvd_neg⟩
  · rw [if_neg hsign]
    exact ⟨_, rfl, fun d => Iff.rfl⟩

theorem number_eq_none {run : Bytes}
    (h : body run = [] ∨ (body run).all isDigit = false) :
    number run = none := by
  rw [number, if_neg]
  intro hcontra
  rcases h with hnil | hno
  · exact hcontra.left hnil
  · rw [hno] at hcontra
    cases hcontra.right

theorem sign_body (run : Bytes) :
    (if run.head? = some 45 then [45] else []) ++ body run = run := by
  by_cases hsign : run.head? = some 45
  · rw [if_pos hsign, body, if_pos hsign]
    exact (List.eq_cons_of_mem_head? hsign).symm
  · rw [if_neg hsign, body, if_neg hsign]
    rfl

theorem body_append {run : Bytes} (hrun : run ≠ []) (b : UInt8) :
    body (run ++ [b]) = body run ++ [b] := by
  cases run with
  | nil => exact absurd rfl hrun
  | cons c run =>
      by_cases hsign : c = 45
      · simp [body, hsign]
      · simp [body, hsign]

theorem body_singleton {b : UInt8} (h : b ≠ 45) : body [b] = [b] := by
  simp [body, h]

end BizzBuzz
end UnixPrograms
