import UnixPrograms.BizzBuzz.Loop

/-!
# The whole program

`main` with its arguments, the opening of the two files and its error exits.
The source may be the file that is written, so what a `read` delivers depends
on what has been written before it.
-/

namespace UnixPrograms
namespace BizzBuzz

open Foundation

/-!
## The loop over a file that may change
-/

/-- The byte at an offset of `fd_src`, after these bytes have been written to
`fd_dir`; `none` when the `read` delivers no byte. -/
abbrev Source := Bytes -> Nat -> Option UInt8

namespace Source

def read (source : Source) (v : Vars) : Nat × Vars :=
  match source v.out v.off with
  | none => (0, v)
  | some b => (1, { v with temp := b, off := v.off + 1 })

def copy (source : Source) : Nat -> Vars -> Vars
  | 0, v => v
  | count + 1, v =>
      let v := (source.read v).2
      copy source count (v.write [v.temp])

def copyToken (source : Source) (i : Nat) (v : Vars) : Vars :=
  let v := { v with off := v.prevOff }
  let v := v.writePrevSep
  let v := if v.negative = true then v.write [45] else v
  let v := source.copy (i - v.prevOff) v
  (source.read v).2

def endOfToken (source : Source) (i : Nat) (v : Vars) : Vars :=
  let v :=
    if v.lastIs5 = true ∧ v.sum = 0 ∧ v.checkIsNum = true then
      v.writePrevSep.write BIZZBUZZ
    else if v.lastIs5 = true ∧ v.checkIsNum = true then
      v.writePrevSep.write BUZZ
    else if v.sum = 0 ∧ v.checkIsNum = true then
      v.writePrevSep.write BIZZ
    else
      source.copyToken i v
  { v with
    prevOff := i + 1
    lastIs5 := false
    sum := -3
    checkIsNum := true
    negative := false
    prevSep := v.temp }

/-- One iteration for a source of `size` bytes; an error is `exit(3)`, with the
variables at that moment. -/
def iteration (source : Source) (size i : Nat) (v : Vars) : Except Vars Vars :=
  let v := { v with prevSymbol := v.temp }
  let (readSize, v) := source.read v
  if readSize ≠ 1 then Except.error v
  else if v.temp = 32 ∨ i = size - 1 ∨ v.temp = 10 ∨ v.temp = 9 then
    Except.ok (source.endOfToken i v)
  else
    Except.ok (insideToken i v)

def mainLoop (source : Source) (size : Nat) :
    Nat -> Nat -> Vars -> Except Vars Vars
  | 0, _, v => Except.ok v
  | count + 1, i, v =>
      match source.iteration size i v with
      | Except.error v => Except.error v
      | Except.ok v => mainLoop source size count (i + 1) v

end Source

/-!
## Files
-/

inductive Kind where
  | regular
  | directory
  | special
deriving DecidableEq

/-- A file: what `fstat` says, the offsets at which a `read` fails, and who may
open it. -/
structure File where
  kind : Kind
  content : Bytes
  damaged : Nat -> Bool
  readable : Bool
  writable : Bool

def File.new : File where
  kind := Kind.regular
  content := []
  damaged := fun _ => false
  readable := true
  writable := true

def File.read (f : File) (off : Nat) : Option UInt8 :=
  if f.damaged off = true then none else f.content[off]?

/-- The file after these bytes have been written from its beginning on. -/
def File.write (f : File) (bytes : Bytes) : File :=
  if f.kind = Kind.regular then
    { f with content := bytes ++ f.content.drop bytes.length }
  else
    f

def File.Writable (f : File) : Prop :=
  f.kind ≠ Kind.directory ∧ f.readable = true ∧ f.writable = true

instance (f : File) : Decidable f.Writable :=
  inferInstanceAs (Decidable (_ ∧ _ ∧ _))

/-- Files under their numbers, and the file that each path leads to.  A path
stands for one directory entry, several may lead to one file. -/
structure Disk where
  names : Bytes -> Option Nat
  files : Nat -> File
  count : Nat
  removable : Bytes -> Bool
  creatable : Bytes -> Bool
  known : forall path n, names path = some n -> n < count

namespace Disk

def openRead (disk : Disk) (path : Bytes) : Option Nat :=
  match disk.names path with
  | none => none
  | some n => if (disk.files n).readable = true then some n else none

def openReadWrite (disk : Disk) (path : Bytes) : Option Nat :=
  match disk.names path with
  | none => none
  | some n => if (disk.files n).Writable then some n else none

/-- `unlink(path)`; the file stays for those who have it open. -/
def unlink (disk : Disk) (path : Bytes) : Disk :=
  if disk.removable path = true then
    { disk with
      names := Function.update disk.names path none
      known := by
        intro p n hp
        by_cases heq : p = path
        · rw [heq, Function.update_self] at hp
          cases hp
        · rw [Function.update_of_ne heq] at hp
          exact disk.known p n hp }
  else
    disk

def create (disk : Disk) (path : Bytes) : Disk where
  names := Function.update disk.names path (some disk.count)
  files := Function.update disk.files disk.count File.new
  count := disk.count + 1
  removable := disk.removable
  creatable := disk.creatable
  known := by
    intro p n hp
    by_cases heq : p = path
    · rw [heq, Function.update_self] at hp
      cases hp
      exact Nat.lt_succ_self _
    · rw [Function.update_of_ne heq] at hp
      exact Nat.lt_succ_of_lt (disk.known p n hp)

def openCreate (disk : Disk) (path : Bytes) : Option Nat × Disk :=
  match disk.names path with
  | some n => (if (disk.files n).Writable then some n else none, disk)
  | none =>
      if disk.creatable path = true then (some disk.count, disk.create path)
      else (none, disk)

def write (disk : Disk) (n : Nat) (bytes : Bytes) : Disk :=
  { disk with
    files := Function.update disk.files n ((disk.files n).write bytes) }

def source (disk : Disk) (fdSrc fdDir : Nat) : Source :=
  fun out off => ((disk.write fdDir out).files fdSrc).read off

end Disk

/-!
## `main`
-/

def OUTPUT : Bytes := text ['o', 'u', 't', 'p', 'u', 't']

/-- How the program ends: its error exits 0, 1, 5 and 3, and its end. -/
inductive Ending where
  | incorrectCount
  | errorOpening
  | notRegular
  | errorReading
  | done
deriving DecidableEq

def paths : List Bytes -> Option (Bytes × Bytes)
  | [src] => some (src, OUTPUT)
  | [src, dir] => some (src, dir)
  | _ => none

def convert (temp : UInt8) (disk : Disk) (fdSrc fdDir : Nat) : Ending × Disk :=
  let size := (disk.files fdSrc).content.length
  if (disk.files fdSrc).kind ≠ Kind.regular then (Ending.notRegular, disk)
  else
    match (disk.source fdSrc fdDir).mainLoop size size 0 (Vars.start temp) with
    | Except.error v => (Ending.errorReading, disk.write fdDir v.out)
    | Except.ok v => (Ending.done, disk.write fdDir (v.out ++ [10]))

def openAndConvert (temp : UInt8) (disk : Disk) (src dir : Bytes) :
    Ending × Disk :=
  let fdSrc := disk.openRead src
  let fdDir := disk.openReadWrite dir
  let disk := if fdDir.isSome = true then disk.unlink dir else disk
  let (fdDir, disk) := disk.openCreate dir
  match fdSrc, fdDir with
  | some fdSrc, some fdDir => convert temp disk fdSrc fdDir
  | _, _ => (Ending.errorOpening, disk)

def main (temp : UInt8) (disk : Disk) (args : List Bytes) : Ending × Disk :=
  match paths args with
  | none => (Ending.incorrectCount, disk)
  | some (src, dir) => openAndConvert temp disk src dir

/-!
## The disk
-/

namespace Disk

variable {disk : Disk} {path : Bytes} {n m : Nat} {bytes : Bytes}

@[simp] theorem unlink_files : (disk.unlink path).files = disk.files := by
  rw [unlink]
  split
  · rfl
  · rfl

@[simp] theorem write_names : (disk.write n bytes).names = disk.names := rfl

@[simp] theorem write_self :
    (disk.write n bytes).files n = (disk.files n).write bytes :=
  Function.update_self ..

theorem write_other (h : m ≠ n) :
    (disk.write n bytes).files m = disk.files m :=
  Function.update_of_ne h ..

theorem create_files (h : n < disk.count) :
    (disk.create path).files n = disk.files n :=
  Function.update_of_ne (Nat.ne_of_lt h) ..

end Disk

/-!
## A file that does not change
-/

def Source.const (src : Bytes) : Source :=
  fun _ off => src[off]?

namespace Source

variable {src : Bytes} {i count : Nat} {v : Vars}

theorem const_read (src : Bytes) (v : Vars) :
    (const src).read v = v.read src := rfl

theorem const_copy : (const src).copy count v = Vars.copy src count v := by
  induction count generalizing v with
  | zero => rfl
  | succ count ih => exact ih

theorem const_endOfToken :
    (const src).endOfToken i v = BizzBuzz.endOfToken src i v := by
  have hcopy : (const src).copyToken i v = BizzBuzz.copyToken src i v := by
    simp only [copyToken, BizzBuzz.copyToken, const_copy, const_read]
  rw [endOfToken, BizzBuzz.endOfToken, hcopy]

theorem const_iteration :
    ((const src).iteration src.length i v).toOption =
      BizzBuzz.iteration src i v := by
  simp only [iteration, BizzBuzz.iteration, const_read, const_endOfToken]
  split
  · rfl
  · split
    · rfl
    · rfl

/-- On a file that does not change the loop is the one of the first model. -/
theorem const_mainLoop :
    ((const src).mainLoop src.length count i v).toOption =
      BizzBuzz.mainLoop src count i v := by
  induction count generalizing i v with
  | zero => rfl
  | succ count ih =>
      rw [mainLoop, BizzBuzz.mainLoop, ← const_iteration]
      cases (const src).iteration src.length i v with
      | error v' => rfl
      | ok v' => exact ih

end Source

end BizzBuzz
end UnixPrograms
