import UnixPrograms.Foundation.Accesses
import UnixPrograms.OperatorStick.Parsing

/-!
# The blocks from `malloc`

The bytes of the blocks that `main_stick.c` stores and loads, and the strings it
looks at there.  A block is told by its size.
-/

namespace UnixPrograms
namespace OperatorStick
namespace Blocks

open Foundation Parsing

def INT : Nat := 4
def POINTER : Nat := 8

/-- What `malloc` returns, with whatever stands in it. -/
structure Block (size : Nat) where
  bytes : Bytes
  length : bytes.length = size

/-- The block of `my_read`; all but the last byte of the file is read into
it. -/
def readBlock (content : Bytes) (buf : Block content.length) : Bytes :=
  content.take (content.length - 1) ++ buf.bytes.drop (content.length - 1)

/-- `strtok_r` looks at a string unless it is given `NULL`. -/
def stringCall (size : Nat) (block : Bytes) :
    Option Nat -> List (Access Nat)
  | none => []
  | some p => [Access.string size ((block.take size).drop p)]

def countAccesses (ending : Ending) (size : Nat) :
    Nat -> Bytes -> Option Nat -> List (Access Nat)
  | 0, _, _ => []
  | fuel + 1, block, temp =>
      stringCall size block temp ++
        match strtokR ending BAR block temp temp with
        | (none, _, _) => []
        | (some _, block, temp) => countAccesses ending size fuel block temp

/-- The copy goes to a block of `sizeof(all_commands)` bytes, the size of the
pointer. -/
def getComsCountAccesses (ending : Ending) (fresh allCommands : Bytes) :
    List (Access Nat) :=
  [Access.string allCommands.length allCommands] ++
    bytesAt POINTER 0 (strlen allCommands + 1) ++
    countAccesses ending POINTER (strlen allCommands + 1)
      (strcpy fresh allCommands) (some 0)

def createPipesAccesses (count : Nat) : List (Access Nat) :=
  (List.range count).flatMap
    (fun i => bytesAt (count * 2 * INT) (i * 2 * INT) (2 * INT))

def closePipesAccesses (count : Nat) : List (Access Nat) :=
  (List.range count).flatMap
    (fun i =>
      bytesAt (count * 2 * INT) (i * 2 * INT) INT ++
        bytesAt (count * 2 * INT) ((2 * i + 1) * INT) INT)

def subcomsAccesses (ending : Ending) (size : Nat) :
    Nat -> Nat -> Bytes -> Option Nat -> List (Access Nat)
  | 0, _, _, _ => []
  | fuel + 1, i, block, command =>
      stringCall block.length block command ++
        bytesAt size (i * POINTER) POINTER ++
        match strtokR ending SPACE block command command with
        | (none, _, _) => []
        | (some _, block, command) =>
            subcomsAccesses ending size fuel (i + 1) block command

def redirectAccesses (count id : Nat) : List (Access Nat) :=
  (if id ≠ 0 then bytesAt (count * 2 * INT) (2 * (id - 1) * INT) INT else []) ++
    if id < count - 1 then bytesAt (count * 2 * INT) ((2 * id + 1) * INT) INT
    else []

def doSubcomsAccesses (ending : Ending) (block : Bytes) (command : Option Nat)
    (count id : Nat) : List (Access Nat) :=
  match command with
  | none => [Access.string 0 []]
  | some command =>
      let length := strlen (block.drop command)
      stringCall block.length block (some command) ++
        subcomsAccesses ending length (length + 1) 0 block (some command) ++
        redirectAccesses count id ++
        closePipesAccesses count ++
        -- `arr_subcoms[0]`
        bytesAt length 0 POINTER

/-- The loop of `main` from `i` on, with what the children do. -/
def commandAccesses (ending : Ending) (count : Nat) :
    Nat -> Nat -> Bytes -> Option Nat -> List (Access Nat)
  | 0, _, _, _ => []
  | todo + 1, i, block, allCommands =>
      stringCall block.length block allCommands ++
        match strtokR ending BAR block allCommands allCommands with
        | (command, block, allCommands) =>
            doSubcomsAccesses ending block command count i ++
              commandAccesses ending count todo (i + 1) block allCommands

/-- All accesses for a file.  A count for which the size of `pipes` leaves the
range of `int` needs a text that is far too long for its copy. -/
def accesses (ending : Ending) (content : Bytes) (buf : Block content.length)
    (temp : Block POINTER) : List (Access Nat) :=
  let allCommands := readBlock content buf
  bytesAt content.length 0 (content.length - 1) ++
    getComsCountAccesses ending temp.bytes allCommands ++
    match Parsing.getComsCount ending temp.bytes allCommands with
    | none => []
    | some comdCount =>
        createPipesAccesses comdCount ++
          commandAccesses ending comdCount comdCount 0 allCommands (some 0) ++
          closePipesAccesses comdCount

def InBlocks (accesses : List (Access Nat)) : Prop :=
  AllInside id accesses

instance (accesses : List (Access Nat)) : Decidable (InBlocks accesses) :=
  inferInstanceAs (Decidable (AllInside id accesses))

def RoomFor (command : Bytes) : Prop :=
  ((tokens SPACE command).length + 1) * POINTER ≤ command.length

/-!
## The copy
-/

section Copy

variable {ending : Ending} {block str : Bytes} {low size : Nat}
  {state : Option Nat}

theorem stringCall_inside (h : Remains block low state str)
    (hsize : block.length ≤ size) : InBlocks (stringCall size block state) := by
  cases state with
  | none => exact allInside_nil
  | some p =>
      apply allInside_singleton.mpr
      show 0 ∈ (block.take size).drop p
      rw [List.take_of_length_le hsize]
      exact h.right.mem_drop

theorem countAccesses_inside {fuel : Nat} (h : Remains block low state str)
    (hsize : block.length ≤ size) :
    InBlocks (countAccesses ending size fuel block state) := by
  induction fuel generalizing block low state str with
  | zero => exact allInside_nil
  | succ fuel ih =>
      rw [countAccesses]
      refine allInside_append.mpr ⟨stringCall_inside h hsize, ?_⟩
      cases hnext : strtok BAR str with
      | none =>
          rcases @strtokR_done ending _ _ _ _ _ h hnext with ⟨state', hcall⟩
          rw [hcall]
          exact allInside_nil
      | some found =>
          rcases found with ⟨token, rest⟩
          rcases @strtokR_goes_on ending _ _ _ _ _ _ _ h hnext with
            ⟨block', p, start, state', hcall, _, htaken⟩
          rw [hcall]
          exact ih htaken.remains (htaken.size.trans_le hsize)

theorem getComsCount_inside_iff {fresh : Bytes} (hfresh : fresh.length = POINTER)
    (allCommands : Bytes) :
    InBlocks (getComsCountAccesses ending fresh allCommands) <->
      0 ∈ allCommands ∧ strlen allCommands < POINTER := by
  unfold InBlocks getComsCountAccesses
  rw [allInside_append, allInside_append, allInside_singleton,
    bytesAt_inside_iff (Nat.succ_pos _)]
  constructor
  · rintro ⟨⟨hstring, hstore⟩, _⟩
    refine ⟨hstring, ?_⟩
    have hle : 0 + (strlen allCommands + 1) ≤ POINTER := hstore
    lia
  · rintro ⟨hstring, hshort⟩
    refine ⟨⟨hstring, ?_⟩, ?_⟩
    · show 0 + (strlen allCommands + 1) ≤ POINTER
      lia
    · have hremains : Remains (strcpy fresh allCommands) 0 (some 0)
          (cstr allCommands) := ⟨le_refl 0, stringAt_strcpy fresh allCommands⟩
      apply countAccesses_inside hremains
      have hlength : (strcpy fresh allCommands).length =
          strlen allCommands + (fresh.length - (strlen allCommands + 1) + 1) := by
        rw [strcpy, List.length_append, List.length_cons, List.length_drop]
        rfl
      lia

end Copy

/-!
## The pipes
-/

theorem createPipes_inside (count : Nat) : InBlocks (createPipesAccesses count) := by
  intro access hmem
  rcases List.mem_flatMap.mp hmem with ⟨i, hi, haccess⟩
  have hlt := List.mem_range.mp hi
  refine bytesAt_inside ?_ access haccess
  show i * 2 * INT + 2 * INT ≤ count * 2 * INT
  unfold INT
  lia

theorem closePipes_inside (count : Nat) : InBlocks (closePipesAccesses count) := by
  intro access hmem
  rcases List.mem_flatMap.mp hmem with ⟨i, hi, haccess⟩
  have hlt := List.mem_range.mp hi
  rcases List.mem_append.mp haccess with haccess | haccess
  · refine bytesAt_inside ?_ access haccess
    show i * 2 * INT + INT ≤ count * 2 * INT
    unfold INT
    lia
  · refine bytesAt_inside ?_ access haccess
    show (2 * i + 1) * INT + INT ≤ count * 2 * INT
    unfold INT
    lia

theorem redirect_inside {count id : Nat} (h : id < count) :
    InBlocks (redirectAccesses count id) := by
  apply allInside_append.mpr
  constructor
  · split
    case isTrue _ =>
      apply bytesAt_inside
      show 2 * (id - 1) * INT + INT ≤ count * 2 * INT
      unfold INT
      lia
    case isFalse _ => exact allInside_nil
  · split
    case isTrue _ =>
      apply bytesAt_inside
      show (2 * id + 1) * INT + INT ≤ count * 2 * INT
      unfold INT
      lia
    case isFalse _ => exact allInside_nil

/-!
## The vectors of arguments

The vector of a command has as many bytes as the command, not as many
pointers.
-/

section Vectors

variable {ending : Ending} {block str : Bytes} {low size : Nat}
  {state : Option Nat}

theorem subcoms_inside_iff {fuel i : Nat} (h : Remains block low state str)
    (hfuel : str.length < fuel) :
    InBlocks (subcomsAccesses ending size fuel i block state) <->
      (i + (tokens SPACE str).length + 1) * POINTER ≤ size := by
  induction fuel generalizing block low state str i with
  | zero => cases hfuel
  | succ fuel ih =>
      have hstring := stringCall_inside h (le_refl block.length)
      have hstore : AllInside id (bytesAt size (i * POINTER) POINTER) <->
          (i + 1) * POINTER ≤ size := by
        rw [bytesAt_inside_iff (by decide), Nat.succ_mul]
        exact Iff.rfl
      unfold InBlocks
      rw [subcomsAccesses, allInside_append, allInside_append,
        and_iff_right (show AllInside id _ from hstring), hstore, tokens_eq]
      cases hnext : strtok SPACE str with
      | none =>
          rcases @strtokR_done ending _ _ _ _ _ h hnext with ⟨state', hcall⟩
          rw [hcall]
          exact and_iff_left allInside_nil
      | some found =>
          rcases found with ⟨token, rest⟩
          rcases @strtokR_goes_on ending _ _ _ _ _ _ _ h hnext with
            ⟨block', p, start, state', hcall, _, htaken⟩
          have hshort := (strtok_eq_some hnext).right
          have hmore := @ih block' rest _ state' (i + 1) htaken.remains (by lia)
          unfold InBlocks at hmore
          rw [hcall, List.length_cons]
          refine (and_congr_right' hmore).trans ?_
          unfold POINTER
          lia

theorem doSubcoms_inside_iff {p count i : Nat} (h : StringAt block p str)
    (hi : i < count) :
    InBlocks (doSubcomsAccesses ending block (some p) count i) <-> RoomFor str := by
  have hremains : Remains block p (some p) str := ⟨le_refl p, h⟩
  have hstring := stringCall_inside hremains (le_refl block.length)
  have hloop := @subcoms_inside_iff ending block str p str.length (some p)
    (str.length + 1) 0 hremains (Nat.lt_succ_self _)
  have hredirect := redirect_inside hi
  have hclose := closePipes_inside count
  unfold InBlocks at *
  simp only [doSubcomsAccesses, h.strlen_eq, allInside_append,
    iff_true_intro hstring, hloop, iff_true_intro hredirect,
    iff_true_intro hclose, bytesAt_inside_iff (show 0 < POINTER by decide),
    true_and, and_true, Nat.zero_add]
  unfold RoomFor
  constructor
  · rintro ⟨hroom, _⟩
    exact hroom
  · intro hroom
    refine ⟨hroom, ?_⟩
    have hle : POINTER ≤ ((tokens SPACE str).length + 1) * POINTER :=
      Nat.le_mul_of_pos_left _ (Nat.succ_pos _)
    exact hle.trans hroom

theorem command_inside_iff {todo i count : Nat} (h : Remains block low state str)
    (htodo : todo ≤ (tokens BAR str).length) (hcount : i + todo ≤ count) :
    InBlocks (commandAccesses ending count todo i block state) <->
      forall command, command ∈ (tokens BAR str).take todo -> RoomFor command := by
  induction todo generalizing block low state str i with
  | zero =>
      refine iff_of_true allInside_nil ?_
      intro command hmem
      cases hmem
  | succ todo ih =>
      rw [tokens_eq] at htodo ⊢
      cases hnext : strtok BAR str with
      | none =>
          rw [hnext] at htodo
          cases htodo
      | some found =>
          rcases found with ⟨token, rest⟩
          rcases @strtokR_goes_on ending _ _ _ _ _ _ _ h hnext with
            ⟨block', p, start, state', hcall, _, htaken⟩
          rw [hnext] at htodo
          have hstring := stringCall_inside h (le_refl block.length)
          have hown := @doSubcoms_inside_iff ending block' token start count i
            htaken.string (by lia)
          have hmore := @ih block' rest _ state' (i + 1) htaken.remains
            (Nat.le_of_succ_le_succ htodo) (by lia)
          unfold InBlocks at *
          rw [commandAccesses, hcall]
          simp only [allInside_append, iff_true_intro hstring, hown, hmore,
            true_and, List.take_succ_cons, List.forall_mem_cons]

end Vectors

/-!
## All blocks
-/

theorem inBlocks_iff (ending : Ending) (content : Bytes)
    (buf : Block content.length) (temp : Block POINTER) :
    InBlocks (accesses ending content buf temp) <->
      (0 ∈ readBlock content buf ∧ strlen (readBlock content buf) < POINTER) ∧
        forall command, command ∈ tokens BAR (cstr (readBlock content buf)) ->
          RoomFor command := by
  have hread : AllInside id (bytesAt content.length 0 (content.length - 1)) := by
    apply bytesAt_inside
    rw [Nat.zero_add]
    exact Nat.sub_le _ _
  have hcopy := @getComsCount_inside_iff ending temp.bytes temp.length
    (readBlock content buf)
  have hpipes := createPipes_inside
    (OperatorStick.getComsCount (cstr (readBlock content buf)))
  have hclose := closePipes_inside
    (OperatorStick.getComsCount (cstr (readBlock content buf)))
  unfold InBlocks at *
  simp only [accesses, getComsCount_eq, allInside_append, iff_true_intro hread,
    hcopy, iff_true_intro hpipes, iff_true_intro hclose, true_and, and_true]
  apply and_congr_right
  rintro ⟨hmem, _⟩
  have htext : Remains (readBlock content buf) 0 (some 0)
      (cstr (readBlock content buf)) :=
    ⟨le_refl 0, @stringAt_cstr (readBlock content buf) 0 hmem⟩
  have hloop := @command_inside_iff ending _ _ _ _
    (OperatorStick.getComsCount (cstr (readBlock content buf))) 0 _ htext
    (le_refl _) (Nat.zero_add _).le
  unfold InBlocks OperatorStick.getComsCount at hloop
  rw [List.take_length] at hloop
  exact hloop

/-- All blocks are large enough exactly for a text of at most seven bars in
front of a NUL that is in the block: a command would need more bytes for its
vector than its text may have for its copy. -/
theorem blocks_suffice_iff (ending : Ending) (content : Bytes)
    (buf : Block content.length) (temp : Block POINTER) :
    InBlocks (accesses ending content buf temp) <->
      0 ∈ readBlock content buf ∧ strlen (readBlock content buf) < POINTER ∧
        forall b, b ∈ cstr (readBlock content buf) -> b = BAR := by
  rw [inBlocks_iff, and_assoc, tokens_eq_segments, ← segments_eq_nil_iff]
  refine and_congr_right' (and_congr_right (fun hshort => ?_))
  constructor
  · intro hroom
    rw [List.eq_nil_iff_forall_not_mem]
    intro command hmem
    have hpart : command.length ≤ strlen (readBlock content buf) := by
      have hflat := (List.sublist_flatten_of_mem hmem).length_le
      rw [flatten_segments] at hflat
      exact hflat.trans (List.length_filter_le _ _)
    have hvector : POINTER ≤ ((tokens SPACE command).length + 1) * POINTER :=
      Nat.le_mul_of_pos_left _ (Nat.succ_pos _)
    have hneeds := hroom command hmem
    unfold RoomFor at hneeds
    lia
  · intro hnone command hmem
    rw [hnone] at hmem
    cases hmem

def zeroBlock (size : Nat) : Block size where
  bytes := zeros size
  length := List.length_replicate

/-- The copy of a short pipeline and the vector of its command leave their
blocks. -/
theorem blocks_overrun :
    ¬ InBlocks (getComsCountAccesses Ending.terminator (zeros POINTER)
        (text "ls | wc".toList ++ [32, 0])) ∧
      ¬ InBlocks (accesses Ending.terminator (text "ls\n".toList)
        (zeroBlock 3) (zeroBlock POINTER)) := by
  constructor
  · decide +kernel
  · decide +kernel

end Blocks
end OperatorStick
end UnixPrograms
