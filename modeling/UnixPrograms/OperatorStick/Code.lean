import UnixPrograms.Foundation.Program
import UnixPrograms.Foundation.Strtok

/-!
# The code of the pipeline

The functions of `main_stick.c`.  The blocks from `malloc` are taken to be
large enough for what is put into them, and the array of descriptors stays the
flat one of the source.
-/

namespace UnixPrograms
namespace OperatorStick

open Foundation

def STDIN_FILENO : Nat := 0
def STDOUT_FILENO : Nat := 1

def BAR : UInt8 := 124
def SPACE : UInt8 := 32

inductive Call where
  | openFile (path : Bytes)
  | printf (message : Bytes)
  | fstat (fd : Nat)
  /-- `read` into the buffer, and the string that the buffer then holds. -/
  | read (fd count : Nat)
  | close (fd : Nat)
  | pipe
  | dup2 (old new : Nat)
  | fork
  /-- The call does not have the place `id` of the command; the failing ones
  are told apart by it. -/
  | execvp (id : Nat) (argv : List Bytes)
  /-- The program that has taken the place of the process. -/
  | image (id : Nat) (argv : List Bytes)
  | wait
  | exit (status : Nat)
deriving DecidableEq

/-- What becomes of a process in `execvp`: its program is replaced, the call
returns, or the null pointer in place of the file's name kills it. -/
inductive Exec where
  | replaced
  | returned
  | killed
deriving DecidableEq

def Call.Answer : Call -> Type
  | openFile _ => Nat
  | printf _ => Unit
  | fstat _ => Nat
  | read _ _ => Bytes
  | close _ => Unit
  | pipe => Nat × Nat
  | dup2 _ _ => Unit
  | fork => Nat
  | execvp _ _ => Exec
  | image _ _ => Unit
  | wait => Int
  | exit _ => Unit

inductive Stop where
  /-- `exit` in `my_open`, or the end of the program of a command. -/
  | exited
  /-- A null pointer instead of a command or of its first word. -/
  | crashed
deriving DecidableEq

abbrev Code (alpha : Type) := Program Call Call.Answer Stop alpha

open Program

def openFile (path : Bytes) : Code Nat := ask (Call.openFile path)
def printf (message : Bytes) : Code Unit := ask (Call.printf message)
def fstat (fd : Nat) : Code Nat := ask (Call.fstat fd)
def read (fd count : Nat) : Code Bytes := ask (Call.read fd count)
def close (fd : Nat) : Code Unit := ask (Call.close fd)
def pipe : Code (Nat × Nat) := ask Call.pipe
def dup2 (old new : Nat) : Code Unit := ask (Call.dup2 old new)
def fork : Code Nat := ask Call.fork
def wait : Code Int := ask Call.wait
def exit (status : Nat) : Code Unit := ask (Call.exit status)

def exec (id : Nat) (argv : List Bytes) : Code Exec :=
  ask (Call.execvp id argv)
def image (id : Nat) (argv : List Bytes) : Code Unit :=
  ask (Call.image id argv)

def execvp (id : Nat) (argv : List Bytes) : Code Unit := do
  match ← exec id argv with
  | Exec.replaced => do
      image id argv
      halt Stop.exited
  | Exec.returned => pure ()
  | Exec.killed => halt Stop.crashed

def myOpen (argv : List Bytes) : Code Nat :=
  match argv with
  | [_, path] => openFile path
  | _ => do
      printf (text "Incorrect count of arguments\n".toList)
      exit 0
      halt Stop.exited

def myRead (fd : Nat) : Code Bytes := do
  let fdSize ← fstat fd
  let buf ← read fd (fdSize - 1)
  close fd
  pure buf

def createPipesFrom : Nat -> List Nat -> Code (List Nat)
  | 0, pipes => pure pipes
  | count + 1, pipes => do
      let (input, output) ← pipe
      createPipesFrom count (pipes ++ [input, output])

def createPipes (count : Nat) : Code (List Nat) :=
  createPipesFrom count []

def closePipesFrom (pipes : List Nat) : Nat -> Nat -> Code Unit
  | 0, _ => pure ()
  | count + 1, i => do
      close (pipes.getD (i * 2) 0)
      close (pipes.getD (2 * i + 1) 0)
      closePipesFrom pipes count (i + 1)

def closePipes (pipes : List Nat) (count : Nat) : Code Unit :=
  closePipesFrom pipes count 0

/-- The two conditional calls of `dup2` in `do_subcoms`: not for the first
input, and not for the last output. -/
def redirectInput (pipes : List Nat) (id : Nat) : Code Unit :=
  if id ≠ 0 then dup2 (pipes.getD (2 * (id - 1)) 0) STDIN_FILENO else pure ()

def redirectOutput (pipes : List Nat) (count id : Nat) : Code Unit :=
  if id < count - 1 then dup2 (pipes.getD (2 * id + 1) 0) STDOUT_FILENO
  else pure ()

def doSubcoms (command : Bytes) (pipes : List Nat) (count id : Nat) :
    Code Unit := do
  let arrSubcoms := tokens SPACE command
  redirectInput pipes id
  redirectOutput pipes count id
  closePipes pipes count
  execvp id arrSubcoms

def getComsCount (allCommands : Bytes) : Nat :=
  (tokens BAR allCommands).length

def waitChildren : Nat -> Code Unit
  | 0 => pure ()
  | count + 1 => do
      let _ ← wait
      waitChildren count

def commandLoop (pipes : List Nat) (count : Nat) :
    Nat -> Nat -> Bytes -> Code Unit
  | 0, _, _ => pure ()
  | todo + 1, i, allCommands =>
      match strtok BAR allCommands with
      | none => do
          let pid ← fork
          if pid = 0 then halt Stop.crashed
          commandLoop pipes count todo (i + 1) allCommands
      | some (command, allCommands) => do
          let pid ← fork
          if pid = 0 then doSubcoms command pipes count i
          commandLoop pipes count todo (i + 1) allCommands

def main (argv : List Bytes) : Code Nat := do
  let fd ← myOpen argv
  let allCommands ← myRead fd
  let comdCount := getComsCount allCommands
  let pipes ← createPipes comdCount
  commandLoop pipes comdCount comdCount 0 allCommands
  closePipes pipes comdCount
  waitChildren comdCount
  pure 0

def process (argv : List Bytes) : Code Unit := do
  let status ← main argv
  exit status

end OperatorStick
end UnixPrograms
