import UnixPrograms.Foundation.ForkTree
import UnixPrograms.Foundation.Descriptors
import UnixPrograms.OperatorStick.Code

/-!
# The processes of the pipeline

What the system calls do to the descriptors and the children of a process, and
the pool of processes that begins with the one that runs `main`.
-/

namespace UnixPrograms
namespace OperatorStick

open Foundation

/-- An open file: one that was there at the start, the file with the commands,
or an end of the pipe that a process made as its `id`-th one. -/
inductive File where
  | inherited (id : Nat)
  | commands
  | reader (maker id : Nat)
  | writer (maker id : Nat)
deriving DecidableEq

/-- What a process has for itself: its descriptors, the number of pipes it has
made, the children it has not waited for, the number of its forks and the
commands it has tried to execute. -/
structure Private where
  fds : Descriptors File
  made : Nat
  children : List Nat
  forks : Nat
  attempts : List Nat
deriving DecidableEq

/-- The commands, as `my_read` delivers them, and those among them for which
there is no program. -/
structure Input where
  allCommands : Bytes
  missing : Nat -> Bool

def Input.words (input : Input) (id : Nat) : List Bytes :=
  tokens SPACE ((tokens BAR input.allCommands).getD id [])

def Input.count (input : Input) : Nat :=
  getComsCount input.allCommands

/-- `execvp` reads the name of the file before it looks for a program. -/
def execOf (input : Input) (id : Nat) (argv : List Bytes) : Exec :=
  if argv.isEmpty = true then Exec.killed
  else if input.missing id = true then Exec.returned
  else Exec.replaced

def Input.returns (input : Input) (id : Nat) : Bool :=
  execOf input id (input.words id) = Exec.returned

def Input.fails (input : Input) (id : Nat) : Bool :=
  input.missing id || (input.words id).isEmpty

theorem execOf_words {input : Input} {id : Nat} (h : input.fails id = false) :
    execOf input id (input.words id) = Exec.replaced := by
  have hboth := Bool.or_eq_false_iff.mp h
  rw [execOf, hboth.left, hboth.right]
  rfl

theorem Input.returns_of_fails {input : Input} {id : Nat}
    (h : input.fails id = false) : input.returns id = false := by
  rw [returns, execOf_words h]
  rfl

/-- One operation.  The world is the list of the processes that have exited,
and the choice is a number for `fstat` or the child that `wait` finds. -/
def act (input : Input) (choice : Nat) :
    (op : Call) -> Own Private -> List Nat ->
      Option (op.Answer × Private × List Nat)
  | Call.openFile _, own, exited =>
      let opened := own.data.fds.openFile File.commands
      some (opened.1, { own.data with fds := opened.2 }, exited)
  | Call.printf _, own, exited => some ((), own.data, exited)
  | Call.fstat _, own, exited => some (choice, own.data, exited)
  | Call.read _ _, own, exited => some (input.allCommands, own.data, exited)
  | Call.close fd, own, exited =>
      some ((), { own.data with fds := own.data.fds.close fd }, exited)
  | Call.pipe, own, exited =>
      let input := own.data.fds.openFile (File.reader own.pid own.data.made)
      let output := input.2.openFile (File.writer own.pid own.data.made)
      some
        ((input.1, output.1),
          { own.data with
            fds := output.2
            made := own.data.made + 1 },
          exited)
  | Call.dup2 old new, own, exited =>
      some ((), { own.data with fds := own.data.fds.dup2 old new }, exited)
  | Call.fork, own, exited => some (choice, own.data, exited)
  | Call.execvp id argv, own, exited =>
      let tried :=
        { own.data with attempts := own.data.attempts ++ [id] }
      match execOf input id argv with
      | Exec.killed =>
          some (Exec.killed, { tried with fds := [] }, own.pid :: exited)
      | outcome => some (outcome, tried, exited)
  | Call.image _ _, own, exited =>
      some ((), { own.data with fds := [] }, own.pid :: exited)
  | Call.wait, own, exited =>
      if own.data.children = [] then some ((-1 : Int), own.data, exited)
      else if choice ∈ own.data.children ∧ choice ∈ exited then
        some
          ((choice : Int),
            { own.data with children := own.data.children.erase choice },
            exited)
      else none
  | Call.exit _, own, exited =>
      some ((), { own.data with fds := [] }, own.pid :: exited)

def forks : (op : Call) -> Option (Nat -> op.Answer)
  | Call.fork => some (fun pid => pid)
  | _ => none

def machine (input : Input) :
    Machine Call Call.Answer Private (List Nat) Nat where
  forks := forks
  kept := fun own pid =>
    { own.data with
      children := pid :: own.data.children
      forks := own.data.forks + 1 }
  copied := fun own =>
    { fds := own.data.fds
      made := 0
      children := []
      forks := 0
      attempts := [] }
  act := act input

abbrev StickPool := Pool Call Call.Answer Stop Unit Private (List Nat)

/-- The descriptors of the process that runs `main`: the standard ones are
open, and there is no end of a pipe of its own. -/
structure Inheritance where
  fds : Descriptors File
  standard : forall fd, fd ≤ 2 -> fds.file fd ≠ none
  foreign : forall fd f, fds.file fd = some f -> exists id, f = File.inherited id

def original (inherited : Inheritance) : Own Private where
  pid := 1
  parent := 0
  data :=
    { fds := inherited.fds
      made := 0
      children := []
      forks := 0
      attempts := [] }

def pipeline (program path : Bytes) (inherited : Inheritance) : StickPool :=
  Pool.single (original inherited) (process [program, path]) []

/-- The calls in which a process may stay: a command runs, or the process
waits for its children. -/
def parks : Call -> Bool
  | Call.image _ _ => true
  | Call.wait => true
  | _ => false

/-- What becomes of a process: what it has tried to execute, whether it is the
original process or a child of it, and how often it has forked. -/
structure Fate where
  attempts : List Nat
  isOriginal : Bool
  ofOriginal : Bool
  forks : Nat
deriving DecidableEq

def fateOf (own : Own Private) : Fate where
  attempts := own.data.attempts
  isOriginal := own.pid = 1
  ofOriginal := own.parent = 1
  forks := own.data.forks

def fates : Outcome Call Stop Unit Private Fate where
  parks := parks
  parked := fateOf
  returned := fun own _ => fateOf own
  stopped := fun own _ => fateOf own

end OperatorStick
end UnixPrograms
