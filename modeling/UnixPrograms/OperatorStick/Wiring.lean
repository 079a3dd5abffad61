import Mathlib.Data.List.GetD
import UnixPrograms.OperatorStick.Commands

/-!
# The wiring of the pipeline

The descriptors of every process at `execvp` and behind `close_pipes`, when
every `execvp` succeeds.
-/

namespace UnixPrograms
namespace OperatorStick

open Foundation Program

/-!
## Descriptors

A table is described by the pipes made so far, each under the descriptors that
`pipe` returned.  The ends of a command replace its standard descriptors before
the rest is closed.
-/

def File.isPipeEnd : File -> Bool
  | inherited _ => false
  | commands => false
  | reader _ _ => true
  | writer _ _ => true

def NoPipeEnd (fds : Descriptors File) : Prop :=
  forall fd f, fds.file fd = some f -> f.isPipeEnd = false

/-- The descriptors that the command at `id` of `count` is to have. -/
structure Wired (inherited : Inheritance) (count id : Nat)
    (fds : Descriptors File) : Prop where
  input : fds.file STDIN_FILENO =
    if id = 0 then inherited.fds.file STDIN_FILENO
    else some (File.reader 1 (id - 1))
  output : fds.file STDOUT_FILENO =
    if id + 1 < count then some (File.writer 1 id)
    else inherited.fds.file STDOUT_FILENO
  others : forall fd f, fd ≠ STDIN_FILENO -> fd ≠ STDOUT_FILENO ->
    fds.file fd = some f -> f.isPipeEnd = false

theorem Inheritance.not_pipeEnd (inherited : Inheritance) :
    NoPipeEnd inherited.fds := by
  intro fd f h
  rcases inherited.foreign fd f h with ⟨id, heq⟩
  rw [heq]
  rfl

/-- The pipes up to `made` are open under the descriptors in `pipes`, and the
other descriptors are the inherited ones. -/
structure OpenPipes (inherited : Inheritance) (pipes : List Nat) (made : Nat)
    (fds : Descriptors File) : Prop where
  length : pipes.length = 2 * made
  readers : forall i, i < made ->
    fds.file (pipes.getD (2 * i) 0) = some (File.reader 1 i)
  writers : forall i, i < made ->
    fds.file (pipes.getD (2 * i + 1) 0) = some (File.writer 1 i)
  high : forall fd, fd ∈ pipes -> 2 < fd
  open_ : forall fd, fd ∈ pipes -> fds.file fd ≠ none
  others : forall fd, fd ∉ pipes -> fds.file fd = inherited.fds.file fd

namespace OpenPipes

variable {inherited : Inheritance} {pipes : List Nat} {made : Nat}
variable {fds : Descriptors File}

theorem free (h : OpenPipes inherited pipes made fds) {fd : Nat}
    (hfree : fds.file fd = none) : 2 < fd ∧ fd ∉ pipes := by
  have hnot : fd ∉ pipes := fun hmem => h.open_ fd hmem hfree
  constructor
  · apply Nat.lt_of_not_le
    intro hle
    rw [h.others fd hnot] at hfree
    exact inherited.standard fd hle hfree
  · exact hnot

theorem getD_mem (h : OpenPipes inherited pipes made fds) {k : Nat}
    (hk : k < 2 * made) : pipes.getD k 0 ∈ pipes := by
  rw [← h.length] at hk
  rw [List.getD_eq_getElem _ _ hk]
  exact List.getElem_mem hk

theorem standard_notMem (h : OpenPipes inherited pipes made fds) {fd : Nat}
    (hfd : fd ≤ 2) : fd ∉ pipes :=
  fun hmem => Nat.not_le_of_lt (h.high fd hmem) hfd

theorem wired (h : OpenPipes inherited pipes made fds) {count id : Nat}
    {fds' : Descriptors File}
    (hfds' : forall fd, fds'.file fd =
      if fd ∈ pipes then none
      else if fd = STDOUT_FILENO ∧ id < count - 1 then
        some (File.writer 1 id)
      else if fd = STDIN_FILENO ∧ id ≠ 0 then some (File.reader 1 (id - 1))
      else fds.file fd) : Wired inherited count id fds' := by
  have hstdin : STDIN_FILENO ∉ pipes := h.standard_notMem (by decide)
  have hstdout : STDOUT_FILENO ∉ pipes := h.standard_notMem (by decide)
  have hin : ¬ (STDIN_FILENO = STDOUT_FILENO ∧ id < count - 1) :=
    fun hboth => absurd hboth.left (by decide)
  have hout : ¬ (STDOUT_FILENO = STDIN_FILENO ∧ id ≠ 0) :=
    fun hboth => absurd hboth.left (by decide)
  constructor
  case input =>
    rw [hfds', if_neg hstdin, if_neg hin]
    by_cases hid : id = 0
    · rw [if_pos hid, if_neg (fun hboth => hboth.right hid)]
      exact h.others _ hstdin
    · rw [if_neg hid, if_pos ⟨rfl, hid⟩]
  case output =>
    rw [hfds', if_neg hstdout]
    by_cases hid : id + 1 < count
    · rw [if_pos hid, if_pos ⟨rfl, by lia⟩]
    · rw [if_neg hid, if_neg (by lia), if_neg hout]
      exact h.others _ hstdout
  case others =>
    intro fd f hnotin hnotout hfile
    rw [hfds'] at hfile
    by_cases hmem : fd ∈ pipes
    · rw [if_pos hmem] at hfile
      cases hfile
    · rw [if_neg hmem, if_neg (fun hboth => hnotout hboth.left),
        if_neg (fun hboth => hnotin hboth.left), h.others fd hmem] at hfile
      exact inherited.not_pipeEnd fd f hfile

theorem pipe (h : OpenPipes inherited pipes made fds) {input output : Nat}
    {fds' : Descriptors File} (hinput : fds.file input = none)
    (houtput : fds.file output = none) (hne : output ≠ input)
    (hfds' : forall fd, fds'.file fd =
      if fd = output then some (File.writer 1 made)
      else if fd = input then some (File.reader 1 made)
      else fds.file fd) :
    OpenPipes inherited (pipes ++ [input, output]) (made + 1) fds' := by
  have hkept : forall fd, fd ∈ pipes -> fds'.file fd = fds.file fd := by
    intro fd hmem
    rw [hfds', if_neg, if_neg]
    · intro heq
      exact (h.free hinput).right (heq ▸ hmem)
    · intro heq
      exact (h.free houtput).right (heq ▸ hmem)
  have hold : forall k, k < 2 * made ->
      fds'.file ((pipes ++ [input, output]).getD k 0) =
        fds.file (pipes.getD k 0) := by
    intro k hk
    rw [List.getD_append _ _ _ _ (by rw [h.length]; exact hk)]
    exact hkept _ (h.getD_mem hk)
  have hinputAt : (pipes ++ [input, output]).getD (2 * made) 0 = input := by
    rw [List.getD_append_right _ _ _ _ (le_of_eq h.length), h.length,
      Nat.sub_self]
    rfl
  have houtputAt :
      (pipes ++ [input, output]).getD (2 * made + 1) 0 = output := by
    rw [List.getD_append_right _ _ _ _ (by rw [h.length]; lia), h.length,
      Nat.add_sub_cancel_left]
    rfl
  constructor
  case length =>
    rw [List.length_append, h.length]
    rfl
  case readers =>
    intro i hi
    rcases Nat.lt_or_eq_of_le (Nat.le_of_lt_succ hi) with hlt | heq
    · rw [hold (2 * i) (by lia)]
      exact h.readers i hlt
    · rw [heq, hinputAt, hfds', if_neg (Ne.symm hne), if_pos rfl]
  case writers =>
    intro i hi
    rcases Nat.lt_or_eq_of_le (Nat.le_of_lt_succ hi) with hlt | heq
    · rw [hold (2 * i + 1) (by lia)]
      exact h.writers i hlt
    · rw [heq, houtputAt, hfds', if_pos rfl]
  case high =>
    intro fd hmem
    rcases List.mem_append.mp hmem with hin | hin
    · exact h.high fd hin
    · rcases List.mem_pair.mp hin with heq | heq
      · rw [heq]
        exact (h.free hinput).left
      · rw [heq]
        exact (h.free houtput).left
  case open_ =>
    intro fd hmem
    rcases List.mem_append.mp hmem with hin | hin
    · rw [hkept fd hin]
      exact h.open_ fd hin
    · rw [hfds']
      rcases List.mem_pair.mp hin with heq | heq
      · rw [if_neg (by rw [heq]; exact Ne.symm hne), if_pos heq]
        exact Option.some_ne_none _
      · rw [if_pos heq]
        exact Option.some_ne_none _
  case others =>
    intro fd hnot
    simp only [List.mem_append, List.mem_cons, List.not_mem_nil, or_false,
      not_or] at hnot
    rw [hfds', if_neg hnot.right.right, if_neg hnot.right.left]
    exact h.others fd hnot.left

end OpenPipes

def closeAll (pipes : List Nat) :
    Nat -> Nat -> Descriptors File -> Descriptors File
  | 0, _, fds => fds
  | count + 1, i, fds =>
      closeAll pipes count (i + 1)
        ((fds.close (pipes.getD (i * 2) 0)).close (pipes.getD (2 * i + 1) 0))

theorem file_closeAll {pipes : List Nat} {count i : Nat}
    (hlength : pipes.length = 2 * (i + count)) (fds : Descriptors File)
    (fd : Nat) :
    (closeAll pipes count i fds).file fd =
      if fd ∈ pipes.drop (2 * i) then none else fds.file fd := by
  induction count generalizing i fds with
  | zero =>
      have hnil : pipes.drop (2 * i) = [] :=
        List.drop_eq_nil_of_le (le_of_eq hlength)
      rw [hnil, if_neg List.not_mem_nil]
      rfl
  | succ count ih =>
      have hfirst : 2 * i < pipes.length := by lia
      have hsecond : 2 * i + 1 < pipes.length := by lia
      have hsplit : pipes.drop (2 * i) =
          pipes.getD (i * 2) 0 :: pipes.getD (2 * i + 1) 0 ::
            pipes.drop (2 * (i + 1)) := by
        rw [Nat.mul_comm i 2, List.getD_eq_getElem _ _ hfirst,
          List.getD_eq_getElem _ _ hsecond, List.drop_eq_getElem_cons hfirst,
          List.drop_eq_getElem_cons hsecond]
        rfl
      rw [closeAll, ih (by lia), Descriptors.file_close,
        Descriptors.file_close, hsplit]
      simp only [List.mem_cons]
      grind

/-!
## The code of the processes
-/

def wiring (inherited : Inheritance) (count : Nat) :
    Call -> Own Private -> Prop
  | Call.execvp id _, own => Wired inherited count id own.data.fds
  | Call.image id _, own =>
      Wired inherited count id own.data.fds ∧ own.data.attempts = [id]
  | Call.wait, own => NoPipeEnd own.data.fds ∧ own.data.attempts = []
  | Call.exit _, own => NoPipeEnd own.data.fds
  | _, _ => True

abbrev WiredCode (input : Input) (inherited : Inheritance)
    (own : Own Private) (code : Code Unit) : Prop :=
  Ensures ((machine input).contract
      (Rules.local (wiring inherited input.count)))
    (fun own _ => own.data.fds = []) (fun own _ => own.data.fds = []) own code

def withFds (own : Own Private) (fds : Descriptors File) : Own Private :=
  { own with data := { own.data with fds := fds } }

section Code

variable {inherited : Inheritance} {rest : Code Unit}

theorem wired_call {op : Call} {next : op.Answer -> Code Unit}
    {own : Own Private} (hforks : (machine input).forks op = none)
    (hneeds : wiring inherited input.count op own)
    (h : forall choice w answer after w',
      act input choice op own w = some (answer, after, w') ->
      WiredCode input inherited { own with data := after } (next answer)) :
    WiredCode input inherited own (call op next) := by
  constructor
  · exact hneeds
  · intro answer own' hdoes
    rcases (does_iff hforks).mp hdoes with ⟨choice, w, after, w', hact, heq⟩
    rw [heq]
    exact h choice w answer after w' hact

theorem wired_effect {op : Call} {next : op.Answer -> Code Unit}
    {own : Own Private} {answer : Nat -> op.Answer} {after : Private}
    {world : List Nat -> List Nat} (hforks : (machine input).forks op = none)
    (hneeds : wiring inherited input.count op own)
    (hact : forall choice w,
      act input choice op own w = some (answer choice, after, world w))
    (h : forall choice,
      WiredCode input inherited { own with data := after }
        (next (answer choice))) :
    WiredCode input inherited own (call op next) := by
  apply wired_call hforks hneeds
  intro choice w value data w' hperform
  rw [hact choice w] at hperform
  cases hperform
  exact h choice

theorem wired_close {fd : Nat} {own : Own Private}
    (h : WiredCode input inherited (withFds own (own.data.fds.close fd)) rest) :
    WiredCode input inherited own (close fd >>= fun _ => rest) := by
  apply wired_effect rfl
  · trivial
  · intro choice w
    rfl
  · intro choice
    exact h

theorem wired_dup2 {old new : Nat} {own : Own Private}
    (h : WiredCode input inherited (withFds own (own.data.fds.dup2 old new))
      rest) :
    WiredCode input inherited own (dup2 old new >>= fun _ => rest) := by
  apply wired_effect rfl
  · trivial
  · intro choice w
    rfl
  · intro choice
    exact h

theorem wired_closePipes {pipes : List Nat} {count i : Nat} {own : Own Private}
    (h : WiredCode input inherited
      (withFds own (closeAll pipes count i own.data.fds)) rest) :
    WiredCode input inherited own
      (closePipesFrom pipes count i >>= fun _ => rest) := by
  induction count generalizing i own with
  | zero => exact h
  | succ count ih =>
      simp only [closePipesFrom, bind_assoc]
      apply wired_close
      apply wired_close
      apply ih
      exact h

def withPipe (own : Own Private) : Own Private :=
  let input := own.data.fds.openFile (File.reader own.pid own.data.made)
  let output := input.2.openFile (File.writer own.pid own.data.made)
  { own with
    data :=
      { own.data with
        fds := output.2
        made := own.data.made + 1 } }

def pipeFds (own : Own Private) : Nat × Nat :=
  let input := own.data.fds.openFile (File.reader own.pid own.data.made)
  let output := input.2.openFile (File.writer own.pid own.data.made)
  (input.1, output.1)

theorem wired_pipe {next : Nat × Nat -> Code Unit} {own : Own Private}
    (h : WiredCode input inherited (withPipe own) (next (pipeFds own))) :
    WiredCode input inherited own (pipe >>= next) := by
  apply wired_effect rfl
  · trivial
  · intro choice w
    rfl
  · intro choice
    exact h

theorem openPipes_withPipe {pipes : List Nat} {made : Nat} {own : Own Private}
    (hpipes : OpenPipes inherited pipes made own.data.fds)
    (hpid : own.pid = 1) (hmade : own.data.made = made) :
    OpenPipes inherited (pipes ++ [(pipeFds own).1, (pipeFds own).2]) (made + 1)
      (withPipe own).data.fds := by
  let reader := File.reader own.pid own.data.made
  let fds := own.data.fds.put own.data.fds.lowest reader
  have hread : fds.file own.data.fds.lowest = some reader := by
    rw [Descriptors.file_put, if_pos rfl]
  have hfree : fds.file fds.lowest = none := Descriptors.file_lowest fds
  have hne : fds.lowest ≠ own.data.fds.lowest := by
    intro heq
    rw [heq, hread] at hfree
    cases hfree
  have hfree' : own.data.fds.file fds.lowest = none := by
    rw [Descriptors.file_put, if_neg hne] at hfree
    exact hfree
  apply hpipes.pipe (Descriptors.file_lowest own.data.fds) hfree' hne
  intro fd
  rw [← hmade, ← hpid]
  exact (Descriptors.file_put fds fds.lowest fd _).trans
    (by rw [Descriptors.file_put])

theorem wired_createPipes {pipes : List Nat} {made count : Nat}
    {rest : List Nat -> Code Unit} {own : Own Private}
    (hpipes : OpenPipes inherited pipes made own.data.fds)
    (hpid : own.pid = 1) (hmade : own.data.made = made)
    (hattempts : own.data.attempts = [])
    (h : forall own' pipes',
      OpenPipes inherited pipes' (made + count) own'.data.fds ->
      own'.data.attempts = [] -> WiredCode input inherited own' (rest pipes')) :
    WiredCode input inherited own (createPipesFrom count pipes >>= rest) := by
  induction count generalizing pipes made own with
  | zero => exact h own pipes hpipes hattempts
  | succ count ih =>
      simp only [createPipesFrom, bind_assoc]
      apply wired_pipe
      apply ih (openPipes_withPipe hpipes hpid hmade) hpid
        (congrArg Nat.succ hmade) hattempts
      intro own' pipes' hpipes'
      rw [Nat.add_assoc, Nat.add_comm 1] at hpipes'
      exact h own' pipes' hpipes'

theorem wired_redirectInput {pipes : List Nat} {made id : Nat}
    {own : Own Private} (hpipes : OpenPipes inherited pipes made own.data.fds)
    (hid : id < made)
    (h : forall fds',
      (forall fd, fds'.file fd =
        if fd = STDIN_FILENO ∧ id ≠ 0 then some (File.reader 1 (id - 1))
        else own.data.fds.file fd) ->
      WiredCode input inherited (withFds own fds') rest) :
    WiredCode input inherited own (redirectInput pipes id >>= fun _ => rest) := by
  rw [redirectInput]
  split
  case isTrue hne =>
    have hreader := hpipes.readers (id - 1) (by lia)
    apply wired_dup2
    apply h
    intro fd
    rw [Descriptors.file_dup2 hreader]
    simp only [hne, ne_eq, not_false_iff, and_true]
  case isFalse heq =>
    apply h own.data.fds
    intro fd
    rw [if_neg (fun hboth => heq hboth.right)]

theorem wired_redirectOutput {pipes : List Nat} {count id : Nat}
    {own : Own Private}
    (hwriter : id < count - 1 ->
      own.data.fds.file (pipes.getD (2 * id + 1) 0) = some (File.writer 1 id))
    (h : forall fds',
      (forall fd, fds'.file fd =
        if fd = STDOUT_FILENO ∧ id < count - 1 then some (File.writer 1 id)
        else own.data.fds.file fd) ->
      WiredCode input inherited (withFds own fds') rest) :
    WiredCode input inherited own
      (redirectOutput pipes count id >>= fun _ => rest) := by
  rw [redirectOutput]
  split
  case isTrue hlt =>
    apply wired_dup2
    apply h
    intro fd
    rw [Descriptors.file_dup2 (hwriter hlt)]
    simp only [hlt, and_true]
  case isFalse hge =>
    apply h own.data.fds
    intro fd
    rw [if_neg (fun hboth => hge hboth.right)]

theorem wired_execvp {id : Nat} {argv : List Bytes} {own : Own Private}
    (hwired : Wired inherited input.count id own.data.fds)
    (hattempts : own.data.attempts = [])
    (hok : execOf input id argv = Exec.replaced) :
    WiredCode input inherited own (execvp id argv >>= fun _ => rest) := by
  have himage : own.data.attempts ++ [id] = [id] := by
    rw [hattempts]
    rfl
  have hact : forall choice w, act input choice (Call.execvp id argv) own w =
      some (Exec.replaced,
        { own.data with attempts := own.data.attempts ++ [id] }, w) := by
    intro choice w
    simp only [act, hok]
    rfl
  apply wired_effect rfl
  · exact hwired
  · exact hact
  · intro choice
    apply wired_effect rfl
    · exact ⟨hwired, himage⟩
    · intro choice' w
      rfl
    · intro choice'
      exact rfl

theorem wired_doSubcoms {pipes : List Nat} {id : Nat} {command : Bytes}
    {own : Own Private}
    (hpipes : OpenPipes inherited pipes input.count own.data.fds)
    (hattempts : own.data.attempts = []) (hid : id < input.count)
    (hok : execOf input id (tokens SPACE command) = Exec.replaced) :
    WiredCode input inherited own
      (doSubcoms command pipes input.count id >>= fun _ => rest) := by
  simp only [doSubcoms, bind_assoc]
  apply wired_redirectInput hpipes hid
  intro fds1 h1
  apply wired_redirectOutput
  · intro _
    have hne : pipes.getD (2 * id + 1) 0 ≠ STDIN_FILENO := by
      intro heq
      have hmem := hpipes.getD_mem (show 2 * id + 1 < 2 * input.count by lia)
      rw [heq] at hmem
      exact hpipes.standard_notMem (by decide) hmem
    change fds1.file _ = _
    rw [h1, if_neg (fun hboth => hne hboth.left)]
    exact hpipes.writers id hid
  · intro fds2 h2
    apply wired_closePipes
    apply wired_execvp
    · apply hpipes.wired
      intro fd
      have hlength : pipes.length = 2 * (0 + input.count) := by
        rw [hpipes.length, Nat.zero_add]
      refine (file_closeAll hlength fds2 fd).trans ?_
      rw [Nat.mul_zero, List.drop_zero, h2 fd]
      change (if fd ∈ pipes then none
        else if _ then _ else fds1.file fd) = _
      rw [h1 fd]
    · exact hattempts
    · exact hok

theorem act_wait {own : Own Private} {choice : Nat} {w w' : List Nat}
    {answer : Int} {after : Private}
    (h : act input choice Call.wait own w = some (answer, after, w')) :
    after.fds = own.data.fds ∧ after.attempts = own.data.attempts := by
  simp only [act] at h
  split at h
  case isTrue _ =>
    injection h with h
    cases h
    exact ⟨rfl, rfl⟩
  case isFalse _ =>
    split at h
    case isTrue _ =>
      injection h with h
      cases h
      exact ⟨rfl, rfl⟩
    case isFalse _ => cases h

theorem wired_waitChildren {count : Nat} {own : Own Private}
    (hfds : NoPipeEnd own.data.fds) (hattempts : own.data.attempts = [])
    (h : forall own', NoPipeEnd own'.data.fds ->
      WiredCode input inherited own' rest) :
    WiredCode input inherited own (waitChildren count >>= fun _ => rest) := by
  induction count generalizing own with
  | zero => exact h own hfds
  | succ count ih =>
      apply wired_call rfl
      · exact ⟨hfds, hattempts⟩
      · intro choice w answer after w' hact
        have hsame := act_wait hact
        apply ih
        · rw [← hsame.left] at hfds
          exact hfds
        · exact hsame.right.trans hattempts

theorem wired_exit {own : Own Private} {status : Nat}
    (hfds : NoPipeEnd own.data.fds) :
    WiredCode input inherited own (exit status) := by
  apply wired_effect rfl
  · exact hfds
  · intro choice w
    rfl
  · intro choice
    exact rfl

theorem wired_tail {pipes : List Nat} {own : Own Private}
    (hpipes : OpenPipes inherited pipes input.count own.data.fds)
    (hattempts : own.data.attempts = []) :
    WiredCode input inherited own
      (closePipes pipes input.count >>= fun _ =>
        waitChildren input.count >>= fun _ => exit 0) := by
  apply wired_closePipes
  apply wired_waitChildren
  · intro fd f hfile
    have hlength : pipes.length = 2 * (0 + input.count) := by
      rw [hpipes.length, Nat.zero_add]
    have hclosed := file_closeAll hlength own.data.fds fd
    rw [Nat.mul_zero, List.drop_zero] at hclosed
    change (closeAll pipes input.count 0 own.data.fds).file fd = some f at hfile
    rw [hclosed] at hfile
    split at hfile
    case isTrue _ => cases hfile
    case isFalse hnot =>
      rw [hpipes.others fd hnot] at hfile
      exact inherited.not_pipeEnd fd f hfile
  · exact hattempts
  · exact fun own' hfds => wired_exit hfds

theorem wired_fork {next : Nat -> Code Unit} {own : Own Private}
    (h : forall pid, own.pid < pid ->
      WiredCode input inherited ((machine input).asParent own pid) (next pid) ∧
        WiredCode input inherited ((machine input).asChild own pid) (next 0)) :
    WiredCode input inherited own (fork >>= next) := by
  constructor
  · trivial
  · rintro answer own' ⟨pid, hlater, ⟨hanswer, hown⟩ | ⟨hanswer, hown⟩⟩
    · rw [hanswer, hown]
      exact (h pid hlater).left
    · rw [hanswer, hown]
      exact (h pid hlater).right

theorem wired_commandLoop {pipes : List Nat} {todo i : Nat}
    {allCommands : Bytes} {own : Own Private}
    (hok : forall id, id < input.count -> input.fails id = false)
    (hrest : forall own',
      OpenPipes inherited pipes input.count own'.data.fds ->
      own'.data.attempts = [] -> WiredCode input inherited own' rest)
    (hleft : tokens BAR allCommands = (tokens BAR input.allCommands).drop i)
    (htodo : (tokens BAR allCommands).length = todo)
    (hpipes : OpenPipes inherited pipes input.count own.data.fds)
    (hattempts : own.data.attempts = []) :
    WiredCode input inherited own
      (commandLoop pipes input.count todo i allCommands >>= fun _ => rest) := by
  induction todo generalizing i allCommands own with
  | zero => exact hrest own hpipes hattempts
  | succ todo ih =>
      rcases next_command hleft htodo with
        ⟨command, left, hnext, hwords, hleft', htodo'⟩
      have hid : i < input.count := by
        have hlength := congrArg List.length hleft
        rw [htodo, List.length_drop] at hlength
        exact Nat.lt_of_sub_pos (by rw [Input.count, getComsCount]; lia)
      have hexec : execOf input i (tokens SPACE command) = Exec.replaced := by
        rw [← hwords]
        exact execOf_words (hok i hid)
      rw [commandLoop_bind rest hnext]
      apply wired_fork
      intro pid hlater
      constructor
      · have hpositive : pid ≠ 0 := by lia
        rw [if_neg hpositive]
        exact ih hleft' htodo' hpipes hattempts
      · rw [if_pos rfl]
        exact wired_doSubcoms hpipes rfl hid hexec

theorem openPipes_start (inherited : Inheritance) :
    OpenPipes inherited [] 0
      ((inherited.fds.openFile File.commands).2.close
        (inherited.fds.openFile File.commands).1) := by
  constructor
  case length => rfl
  case readers => exact fun i hi => absurd hi (Nat.not_lt_zero i)
  case writers => exact fun i hi => absurd hi (Nat.not_lt_zero i)
  case high => exact fun fd hmem => absurd hmem List.not_mem_nil
  case open_ => exact fun fd hmem => absurd hmem List.not_mem_nil
  case others =>
    intro fd _
    rw [Descriptors.openFile, Descriptors.file_close, Descriptors.file_put]
    split
    case isTrue heq => rw [heq, Descriptors.file_lowest]
    case isFalse _ => rfl

theorem wired_process (program path : Bytes)
    (hok : forall id, id < input.count -> input.fails id = false) :
    WiredCode input inherited (original inherited)
      (process [program, path]) := by
  rw [process_eq]
  refine wired_effect rfl trivial (fun _ _ => rfl) ?_
  intro fdChoice
  refine wired_effect rfl trivial (fun _ _ => rfl) ?_
  intro fdSize
  refine wired_effect rfl trivial (fun _ _ => rfl) ?_
  intro readChoice
  apply wired_close
  apply wired_createPipes (openPipes_start inherited)
  · rfl
  · rfl
  · rfl
  · intro own pipes hpipes hattempts
    rw [Nat.zero_add] at hpipes
    apply wired_commandLoop hok
    · exact fun own' hpipes' hattempts' => wired_tail hpipes' hattempts'
    · rfl
    · rfl
    · exact hpipes
    · exact hattempts

end Code

/-!
## Main results
-/

/-- The process has come to the `execvp` of a command, or is the command. -/
def AtCommand (id : Nat) (code : Code Unit) : Prop :=
  exists argv,
    code.nextOp = some (Call.execvp id argv) ∨
      code.nextOp = some (Call.image id argv)

def PastClose (code : Code Unit) : Prop :=
  code.nextOp = none ∨ code.nextOp = some Call.wait ∨
    exists status, code.nextOp = some (Call.exit status)

def AtRest (pool : StickPool) : Prop :=
  forall proc, proc ∈ pool.procs -> proc.code.nextOp.map parks = some true

instance (pool : StickPool) : Decidable (AtRest pool) :=
  inferInstanceAs (Decidable (forall proc, proc ∈ pool.procs -> _))

abbrev StickProcess := Process Call Call.Answer Stop Unit Private

def holds (f : File) (proc : StickProcess) : Bool :=
  proc.own.data.fds.contains (some f)

structure PipelineWired (inherited : Inheritance) (count : Nat)
    (pool : StickPool) : Prop where
  atExec : forall proc, proc ∈ pool.procs -> forall id,
    AtCommand id proc.code -> Wired inherited count id proc.own.data.fds
  afterClose : forall proc, proc ∈ pool.procs -> PastClose proc.code ->
    NoPipeEnd proc.own.data.fds
  /-- One process can write into a pipe, and one can read from it. -/
  ends : AtRest pool -> forall id, id + 1 < count ->
    (exists proc,
      pool.procs.filter (holds (File.writer 1 id)) = [proc] ∧
        AtCommand id proc.code) ∧
      exists proc,
        pool.procs.filter (holds (File.reader 1 id)) = [proc] ∧
          AtCommand (id + 1) proc.code
  /-- Once the writing command has ended, nobody can write into the pipe. -/
  endOfFile : pool.Settled fates -> forall id, id + 1 < count ->
    (forall proc, proc ∈ pool.procs -> proc.own.data.attempts = [id] ->
      proc.code.nextOp = none) ->
    forall proc, proc ∈ pool.procs -> holds (File.writer 1 id) proc = false

theorem holds_iff {f : File} {proc : StickProcess} :
    holds f proc = true <-> exists fd, proc.own.data.fds.file fd = some f := by
  rw [holds, List.contains_iff_mem]
  exact Descriptors.mem_iff_file

theorem Wired.writer_iff {inherited : Inheritance} {count id pipe : Nat}
    {fds : Descriptors File} (h : Wired inherited count id fds)
    (hpipe : pipe + 1 < count) :
    (exists fd, fds.file fd = some (File.writer 1 pipe)) <-> id = pipe := by
  constructor
  · rintro ⟨fd, hfile⟩
    by_cases hout : fd = STDOUT_FILENO
    · rw [hout, h.output] at hfile
      split at hfile
      case isTrue _ =>
        injection hfile with hfile
        injection hfile
      case isFalse _ =>
        cases inherited.not_pipeEnd _ _ hfile
    · by_cases hin : fd = STDIN_FILENO
      · rw [hin, h.input] at hfile
        split at hfile
        case isTrue _ => cases inherited.not_pipeEnd _ _ hfile
        case isFalse _ => cases hfile
      · cases h.others fd _ hin hout hfile
  · intro heq
    exists STDOUT_FILENO
    rw [h.output, heq, if_pos hpipe]

theorem Wired.reader_iff {inherited : Inheritance} {count id pipe : Nat}
    {fds : Descriptors File} (h : Wired inherited count id fds) :
    (exists fd, fds.file fd = some (File.reader 1 pipe)) <-> id = pipe + 1 := by
  constructor
  · rintro ⟨fd, hfile⟩
    by_cases hin : fd = STDIN_FILENO
    · rw [hin, h.input] at hfile
      split at hfile
      case isTrue _ => cases inherited.not_pipeEnd _ _ hfile
      case isFalse hid =>
        injection hfile with hfile
        injection hfile with _ hbefore
        lia
    · by_cases hout : fd = STDOUT_FILENO
      · rw [hout, h.output] at hfile
        split at hfile
        case isTrue _ => cases hfile
        case isFalse _ => cases inherited.not_pipeEnd _ _ hfile
      · cases h.others fd _ hin hout hfile
  · intro heq
    exists STDIN_FILENO
    rw [h.input, heq, if_neg (Nat.succ_ne_zero pipe), Nat.add_sub_cancel]

theorem needs_of_nextOp {input : Input} {inherited : Inheritance}
    {own : Own Private} {code : Code Unit} {op : Call}
    (h : WiredCode input inherited own code) (hop : code.nextOp = some op) :
    wiring inherited input.count op own := by
  cases code with
  | ret value => cases hop
  | halt reason => cases hop
  | call op' next =>
      injection hop with hop
      rw [← hop]
      exact h.left

theorem fds_of_ended {input : Input} {inherited : Inheritance}
    {own : Own Private} {code : Code Unit}
    (h : WiredCode input inherited own code) (hop : code.nextOp = none) :
    own.data.fds = [] := by
  cases code with
  | ret value => exact h
  | halt reason => exact h
  | call op next => cases hop

theorem noPipeEnd_nil : NoPipeEnd [] := by
  intro fd f hfile
  cases hfile

theorem parked_cases {input : Input} {inherited : Inheritance}
    {own : Own Private} {code : Code Unit}
    (h : WiredCode input inherited own code)
    (hparked : code.nextOp.map parks = some true) :
    (exists id,
      AtCommand id code ∧ Wired inherited input.count id own.data.fds ∧
        own.data.attempts = [id]) ∨
      (NoPipeEnd own.data.fds ∧ own.data.attempts = []) := by
  rcases Option.map_eq_some_iff.mp hparked with ⟨op, hop, hparks⟩
  have hneeds := needs_of_nextOp h hop
  cases op with
  | image id argv =>
      exact Or.inl ⟨id, ⟨argv, Or.inr hop⟩, hneeds.left, hneeds.right⟩
  | wait => exact Or.inr hneeds
  | _ => cases hparks

theorem holds_of_noPipeEnd {f : File} {proc : StickProcess}
    (h : NoPipeEnd proc.own.data.fds) (hf : f.isPipeEnd = true) :
    holds f proc = false := by
  apply Bool.eq_false_iff.mpr
  intro hholds
  rcases holds_iff.mp hholds with ⟨fd, hfile⟩
  rw [h fd f hfile] at hf
  cases hf

theorem holds_at_rest {input : Input} {inherited : Inheritance}
    {proc : StickProcess}
    (h : WiredCode input inherited proc.own proc.code)
    (hparked : proc.code.nextOp.map parks = some true) {f : File} {id : Nat}
    (hf : f.isPipeEnd = true)
    (hends : forall id',
      Wired inherited input.count id' proc.own.data.fds ->
      ((exists fd, proc.own.data.fds.file fd = some f) <-> id' = id)) :
    holds f proc = decide (proc.own.data.attempts = [id]) := by
  rcases parked_cases h hparked with ⟨id', -, hwired, hattempts⟩ |
    ⟨hnone, hattempts⟩
  · rw [Bool.eq_iff_iff, holds_iff, hends id' hwired, hattempts]
    simp
  · rw [holds_of_noPipeEnd hnone hf, hattempts]
    rfl

theorem sum_count_eq {procs : List StickProcess} {id : Nat}
    (h : forall proc, proc ∈ procs ->
      proc.own.data.attempts = [] ∨
        exists id', proc.own.data.attempts = [id']) :
    (procs.map (fun proc => proc.own.data.attempts.count id)).sum =
      (procs.filter
        (fun proc => decide (proc.own.data.attempts = [id]))).length := by
  induction procs with
  | nil => rfl
  | cons proc procs ih =>
      have hothers := ih
        (fun other hmem => h other (List.mem_cons_of_mem proc hmem))
      rw [List.map_cons, List.sum_cons, hothers, List.filter_cons]
      rcases h proc List.mem_cons_self with heq | ⟨id', heq⟩
      · rw [heq]
        exact Nat.zero_add _
      · rw [heq]
        by_cases hid : id' = id
        · simp [hid, Nat.add_comm]
        · simp [hid]

theorem outcome_isSome_iff (proc : StickProcess) :
    (proc.outcome fates).isSome = true <->
      proc.code.nextOp = none ∨ proc.code.nextOp.map parks = some true := by
  rcases proc with ⟨own, code⟩
  cases code with
  | ret value => exact iff_of_true rfl (Or.inl rfl)
  | halt reason => exact iff_of_true rfl (Or.inl rfl)
  | call op next =>
      change (if parks op = true then _ else _ : Option Fate).isSome = true <-> _
      cases hparks : parks op with
      | true => exact iff_of_true rfl (Or.inr (congrArg some hparks))
      | false => simp [hparks]

theorem settled_of_atRest {pool : StickPool} (h : AtRest pool) :
    pool.Settled fates :=
  fun proc hmem => (outcome_isSome_iff proc).mpr (Or.inr (h proc hmem))

theorem one_at_command {input : Input} {inherited : Inheritance}
    {pool : StickPool} (hwired : forall proc, proc ∈ pool.procs ->
      WiredCode input inherited proc.own proc.code)
    (hrest : AtRest pool) (hstarted : StartedOnce input pool) {id : Nat}
    (hid : id < input.count) :
    exists proc,
      pool.procs.filter
          (fun proc => decide (proc.own.data.attempts = [id])) = [proc] ∧
        AtCommand id proc.code := by
  have hlength : (pool.procs.filter
      (fun proc => decide (proc.own.data.attempts = [id]))).length = 1 := by
    rw [← sum_count_eq, hstarted.once id hid]
    intro proc hmem
    rcases parked_cases (hwired proc hmem) (hrest proc hmem) with
      ⟨id', -, -, hattempts⟩ | ⟨-, hattempts⟩
    · exact Or.inr ⟨id', hattempts⟩
    · exact Or.inl hattempts
  rcases List.length_eq_one_iff.mp hlength with ⟨proc, hproc⟩
  refine ⟨proc, hproc, ?_⟩
  have hin : proc ∈ pool.procs.filter
      (fun proc => decide (proc.own.data.attempts = [id])) := by
    rw [hproc]
    exact List.mem_singleton_self proc
  rcases List.mem_filter.mp hin with ⟨hmem, htried⟩
  have htried' := of_decide_eq_true htried
  rcases parked_cases (hwired proc hmem) (hrest proc hmem) with
    ⟨id', hat, -, hattempts⟩ | ⟨-, hattempts⟩
  · rw [htried'] at hattempts
    injection hattempts with hattempts
    rw [hattempts]
    exact hat
  · rw [htried'] at hattempts
    cases hattempts

/-- In every run in which every `execvp` succeeds, the pipeline is wired. -/
theorem pipeline_wired {input : Input} {program path : Bytes}
    {inherited : Inheritance} {events : List (Nat × Nat)} {pool : StickPool}
    (hok : forall id, id < input.count -> input.fails id = false)
    (hrun : run (Pool.step (machine input)) (pipeline program path inherited)
      events = some pool) : PipelineWired inherited input.count pool := by
  have hwired : forall proc, proc ∈ pool.procs ->
      WiredCode input inherited proc.own proc.code := fun proc hmem =>
    (Pool.meets_run ((machine input).stable_local _) rfl trivial
      (wired_process program path hok) hrun proc hmem).right
  constructor
  case atExec =>
    rintro proc hmem id ⟨argv, hop | hop⟩
    · exact needs_of_nextOp (hwired proc hmem) hop
    · exact (needs_of_nextOp (hwired proc hmem) hop).left
  case afterClose =>
    rintro proc hmem (hop | hop | ⟨status, hop⟩)
    · rw [fds_of_ended (hwired proc hmem) hop]
      exact noPipeEnd_nil
    · exact (needs_of_nextOp (hwired proc hmem) hop).left
    · exact needs_of_nextOp (hwired proc hmem) hop
  case ends =>
    intro hrest id hid
    have hstarted : StartedOnce input pool :=
      (startedOnce_iff hrun (settled_of_atRest hrest)).mpr
        (fun i hi => Input.returns_of_fails (hok i (by lia)))
    constructor
    · have hfilter : pool.procs.filter (holds (File.writer 1 id)) =
          pool.procs.filter
            (fun proc => decide (proc.own.data.attempts = [id])) :=
        List.filter_congr (fun proc hmem =>
          holds_at_rest (hwired proc hmem) (hrest proc hmem) rfl
            (fun _ hw => hw.writer_iff hid))
      rw [hfilter]
      exact one_at_command hwired hrest hstarted (by lia)
    · have hfilter : pool.procs.filter (holds (File.reader 1 id)) =
          pool.procs.filter
            (fun proc => decide (proc.own.data.attempts = [id + 1])) :=
        List.filter_congr (fun proc hmem =>
          holds_at_rest (hwired proc hmem) (hrest proc hmem) rfl
            (fun _ hw => hw.reader_iff))
      rw [hfilter]
      exact one_at_command hwired hrest hstarted hid
  case endOfFile =>
    intro hsettled id hid hended proc hmem
    have hpipe : (File.writer 1 id).isPipeEnd = true := rfl
    rcases (outcome_isSome_iff proc).mp (hsettled proc hmem) with
      hnone | hparked
    · apply holds_of_noPipeEnd ?_ hpipe
      rw [fds_of_ended (hwired proc hmem) hnone]
      exact noPipeEnd_nil
    · rw [holds_at_rest (hwired proc hmem) hparked hpipe
        (fun _ hw => hw.writer_iff hid)]
      apply decide_eq_false
      intro htried
      rw [hended proc hmem htried] at hparked
      cases hparked

def twoCommands : Input where
  allCommands := text ['x', '|', 'y']
  missing := fun _ => false

theorem pipeline_wired_two :
    exists pool,
      run (Pool.step (machine twoCommands)) (pipeline [] [] terminal)
          (List.replicate 12 (0, 0) ++ List.replicate 6 (1, 0) ++
            List.replicate 6 (2, 0)) = some pool ∧
        AtRest pool ∧ pool.procs.length = 3 ∧
        PipelineWired terminal twoCommands.count pool := by
  have hrun : exists pool,
      run (Pool.step (machine twoCommands)) (pipeline [] [] terminal)
          (List.replicate 12 (0, 0) ++ List.replicate 6 (1, 0) ++
            List.replicate 6 (2, 0)) = some pool ∧
        AtRest pool ∧ pool.procs.length = 3 := by
    decide +kernel
  rcases hrun with ⟨pool, hrun, hrest, hthree⟩
  exact ⟨pool, hrun, hrest, hthree, pipeline_wired (by decide +kernel) hrun⟩

end OperatorStick
end UnixPrograms
