import UnixPrograms.Foundation.Tokenizer
import UnixPrograms.OperatorStick.Code

/-!
# Parsing in place

The three loops over `strtok_r` in `main_stick.c`, on blocks of memory.  Each
call is given the state both as its string and as its state.  What `execvp` is
given is read from the block when all words are terminated.
-/

namespace UnixPrograms
namespace OperatorStick
namespace Parsing

open Foundation

def countLoop (ending : Ending) : Nat -> Bytes -> Option Nat -> Nat -> Option Nat
  | 0, _, _, _ => none
  | fuel + 1, block, temp, res =>
      match strtokR ending BAR block temp temp with
      | (none, _, _) => some res
      | (some _, block, temp) => countLoop ending fuel block temp (res + 1)

/-- `fresh` is the block for the copy. -/
def getComsCount (ending : Ending) (fresh allCommands : Bytes) : Option Nat :=
  let temp := strcpy fresh allCommands
  countLoop ending (strlen allCommands + 1) temp (some 0) 0

/-- The loop of `main` in the original process: what each call returns, and the
block of which the child gets a copy. -/
def commandLoop (ending : Ending) :
    Nat -> Bytes -> Option Nat -> List (Option Nat × Bytes)
  | 0, _, _ => []
  | todo + 1, block, allCommands =>
      match strtokR ending BAR block allCommands allCommands with
      | (command, block, allCommands) =>
          (command, block) :: commandLoop ending todo block allCommands

def subcomsLoop (ending : Ending) :
    Nat -> Bytes -> Option Nat -> Option (List (Option Nat) × Bytes)
  | 0, _, _ => none
  | fuel + 1, block, command =>
      match strtokR ending SPACE block command command with
      | (none, block, _) => some ([none], block)
      | (some word, block, command) =>
          (subcomsLoop ending fuel block command).map
            (fun found => (some word :: found.1, found.2))

/-- The strings of `arr_subcoms`; a null pointer instead of the command has no
result. -/
def doSubcoms (ending : Ending) (block : Bytes) (command : Option Nat) :
    Option (List (Option Bytes)) :=
  match command with
  | none => none
  | some command =>
      let length := strlen (block.drop command)
      (subcomsLoop ending (length + 1) block (some command)).map
        (fun found => found.1.map (fun word => word.map (stringOf found.2)))

/-!
## The loops

`strtok_r` cuts the block in place.  The outer state points behind the segment
that the inner calls are cutting, and is untouched by them.
-/

section Loops

variable {ending : Ending} {block str : Bytes} {low : Nat} {state : Option Nat}

theorem strtokR_done {delim : UInt8} (h : Remains block low state str)
    (hnext : strtok delim str = none) :
    exists state', strtokR ending delim block state state =
      (none, block, state') := by
  cases state with
  | none => exact ⟨none, rfl⟩
  | some p => exact strtokR_none h.right hnext

theorem strtokR_goes_on {delim : UInt8} {token rest : Bytes}
    (h : Remains block low state str)
    (hnext : strtok delim str = some (token, rest)) :
    exists block' p start state',
      strtokR ending delim block state state = (some start, block', state') ∧
        low ≤ p ∧ Taken block p block' start token state' rest := by
  cases state with
  | none =>
      have hnil : str = [] := h
      rw [hnil] at hnext
      cases hnext
  | some p =>
      rcases @strtokR_some ending delim block str (some p) p token rest h.right
        hnext with ⟨block', start, state', hcall, htaken⟩
      exact ⟨block', p, start, state', hcall, h.left, htaken⟩

theorem countLoop_eq {fuel res : Nat} (h : Remains block low state str)
    (hfuel : str.length < fuel) :
    countLoop ending fuel block state res =
      some (res + (tokens BAR str).length) := by
  induction fuel generalizing block low state str res with
  | zero => cases hfuel
  | succ fuel ih =>
      rw [countLoop, tokens_eq]
      cases hnext : strtok BAR str with
      | none =>
          rcases @strtokR_done ending _ _ _ _ _ h hnext with ⟨state', hcall⟩
          rw [hcall]
          rfl
      | some found =>
          rcases found with ⟨token, rest⟩
          rcases @strtokR_goes_on ending _ _ _ _ _ _ _ h hnext with
            ⟨block', p, start, state', hcall, _, htaken⟩
          have hshort := (strtok_eq_some hnext).right
          rw [hcall]
          refine (ih htaken.remains (by lia)).trans (congrArg some ?_)
          rw [List.length_cons]
          lia

theorem subcomsLoop_eq {fuel : Nat} (h : Remains block low state str)
    (hfuel : str.length < fuel) :
    exists arr block', subcomsLoop ending fuel block state = some (arr, block') ∧
      arr.map (fun word => word.map (stringOf block')) =
        (tokens SPACE str).map some ++ [none] ∧
      forall q s, StringAt block q s -> q + s.length ≤ low -> StringAt block' q s := by
  induction fuel generalizing block low state str with
  | zero => cases hfuel
  | succ fuel ih =>
      rw [subcomsLoop, tokens_eq]
      cases hnext : strtok SPACE str with
      | none =>
          rcases @strtokR_done ending _ _ _ _ _ h hnext with ⟨state', hcall⟩
          rw [hcall]
          exact ⟨[none], block, rfl, rfl, fun _ _ hstring _ => hstring⟩
      | some found =>
          rcases found with ⟨token, rest⟩
          rcases @strtokR_goes_on ending _ _ _ _ _ _ _ h hnext with
            ⟨block1, p, start, state', hcall, hlow, htaken⟩
          have hshort := (strtok_eq_some hnext).right
          rcases ih htaken.remains (by lia) with
            ⟨arr, block', hloop, hwords, hkeeps⟩
          have hbehind := htaken.behind
          have htoken := hkeeps start token htaken.string (le_refl _)
          refine ⟨some start :: arr, block', ?_, ?_, ?_⟩
          · rw [hcall]
            show (subcomsLoop ending fuel block1 state').map _ = _
            rw [hloop]
            rfl
          · rw [List.map_cons, hwords, Option.map_some, htoken.stringOf_eq]
            rfl
          · intro q s hstring hbefore
            exact hkeeps q s (htaken.keeps q s hstring (by lia)) (by lia)

theorem doSubcoms_eq {p : Nat} (h : StringAt block p str) :
    doSubcoms ending block (some p) =
      some ((tokens SPACE str).map some ++ [none]) := by
  have hremains : Remains block p (some p) str := ⟨le_refl p, h⟩
  rcases @subcomsLoop_eq ending _ _ _ _ (str.length + 1) hremains
    (Nat.lt_succ_self _) with ⟨arr, block', hloop, hwords, _⟩
  simp only [doSubcoms, h.strlen_eq, hloop, Option.map_some, hwords]

theorem commandLoop_eq {todo : Nat} (h : Remains block low state str)
    (htodo : todo ≤ (tokens BAR str).length) :
    (commandLoop ending todo block state).map
        (fun found => (found.1.map (stringOf found.2),
          doSubcoms ending found.2 found.1)) =
      ((tokens BAR str).take todo).map
        (fun command =>
          (some command, some ((tokens SPACE command).map some ++ [none]))) := by
  induction todo generalizing block low state str with
  | zero => rfl
  | succ todo ih =>
      rw [tokens_eq] at htodo ⊢
      cases hnext : strtok BAR str with
      | none =>
          rw [hnext] at htodo
          cases htodo
      | some found =>
          rcases found with ⟨token, rest⟩
          rcases @strtokR_goes_on ending _ _ _ _ _ _ _ h hnext with
            ⟨block', p, start, state', hcall, _, htaken⟩
          rw [hnext] at htodo
          rw [commandLoop, hcall]
          simp only [List.map_cons, List.take_succ_cons, Option.map_some,
            htaken.string.stringOf_eq, doSubcoms_eq htaken.string]
          rw [ih htaken.remains (Nat.le_of_succ_le_succ htodo)]

end Loops

/-!
## The whole text
-/

theorem stringAt_strcpy (fresh src : Bytes) :
    StringAt (strcpy fresh src) 0 (cstr src) :=
  ⟨noNul_cstr src, fresh.drop (strlen src + 1), rfl⟩

theorem getComsCount_eq (ending : Ending) (fresh allCommands : Bytes) :
    getComsCount ending fresh allCommands =
      some (OperatorStick.getComsCount (cstr allCommands)) := by
  have hremains : Remains (strcpy fresh allCommands) 0 (some 0)
      (cstr allCommands) := ⟨le_refl 0, stringAt_strcpy fresh allCommands⟩
  refine (countLoop_eq hremains (Nat.lt_succ_self _)).trans (congrArg some ?_)
  exact Nat.zero_add _

theorem commandLoop_segments (ending : Ending) {block : Bytes} (h : 0 ∈ block) :
    (commandLoop ending (OperatorStick.getComsCount (cstr block)) block
        (some 0)).map
        (fun found => (found.1.map (stringOf found.2),
          doSubcoms ending found.2 found.1)) =
      (segments BAR (cstr block)).map
        (fun command =>
          (some command, some ((segments SPACE command).map some ++ [none]))) := by
  have htext : Remains block 0 (some 0) (cstr block) :=
    ⟨le_refl 0, @stringAt_cstr block 0 h⟩
  refine (@commandLoop_eq ending _ _ _ _ _ htext (le_refl _)).trans ?_
  rw [List.take_length]
  simp only [tokens_eq_segments]

/-- Whatever the state is at the end of a string, the count is the number of
segments between the bars, the calls of `main` return these segments, and the
arguments of each are its words, ended by `NULL`. -/
theorem pipeline_parsed (ending : Ending) (fresh : Bytes) {block : Bytes}
    (h : 0 ∈ block) :
    exists count,
      getComsCount ending fresh block = some count ∧
        count = (segments BAR (cstr block)).length ∧
        (commandLoop ending count block (some 0)).map
            (fun found => found.1.map (stringOf found.2)) =
          (segments BAR (cstr block)).map some ∧
        (commandLoop ending count block (some 0)).map
            (fun found => doSubcoms ending found.2 found.1) =
          (segments BAR (cstr block)).map
            (fun command => some ((segments SPACE command).map some ++ [none])) := by
  have hloop := commandLoop_segments ending h
  refine ⟨_, getComsCount_eq ending fresh block, ?_, ?_, ?_⟩
  · rw [← tokens_eq_segments]
    rfl
  · have hfirst := congrArg (List.map Prod.fst) hloop
    rw [List.map_map, List.map_map] at hfirst
    exact hfirst
  · have hsecond := congrArg (List.map Prod.snd) hloop
    rw [List.map_map, List.map_map] at hsecond
    exact hsecond

theorem pipeline_parsed_example :
    exists count,
      getComsCount Ending.null (zeros 16) (text "| ls  -l||wc |".toList ++ [0]) =
          some count ∧
        count = 2 := by
  have hblock : (0 : UInt8) ∈ text "| ls  -l||wc |".toList ++ [0] := by
    decide
  rcases pipeline_parsed Ending.null (zeros 16) hblock with
    ⟨count, hcount, hlength, _⟩
  refine ⟨count, hcount, hlength.trans ?_⟩
  decide

end Parsing
end OperatorStick
end UnixPrograms
