import UnixPrograms.Foundation.Program
import Mathlib.Algebra.Order.Ring.Int
import Mathlib.Algebra.BigOperators.Group.List.Basic

/-!
# System V shared memory and semaphores

The part of the kernel that the shared stack talks to: segments and semaphore
sets found by key or by identifier, semaphore operations with their ceiling
and their undo adjustments, and removal.  Every call is one atomic operation
of a calling process.  A call that would sleep is simply not enabled, and a
timed call that would sleep may also give up.
-/

namespace UnixPrograms
namespace Ipc

open Foundation

abbrev Pid := Nat

abbrev Ptr := UInt64

inductive Errno where
  | unset
  | enoent
  | eexist
  | einval
  | eidrm
  | eagain
  | erange
deriving DecidableEq, Repr

/-- What the kernel reports for an identifier that has been removed. -/
inductive Removed where
  | einval
  | eidrm
deriving DecidableEq, Repr

def Removed.errno : Removed -> Errno
  | Removed.einval => Errno.einval
  | Removed.eidrm => Errno.eidrm

def SEMVMX : Int := 32767

def SHMMIN : Nat := 1

/-- The key that always asks for a new object. -/
def IPC_PRIVATE : Int := 0

structure GetFlags where
  creat : Bool
  excl : Bool
deriving DecidableEq

/-- `IPC_NOWAIT`, `SEM_UNDO`, and whether the call is `semtimedop`. -/
structure SemFlags where
  nowait : Bool
  undo : Bool
  timed : Bool
deriving DecidableEq

structure Answer where
  ret : Int
  errno : Errno
deriving DecidableEq

/-- One kernel call, or one access to an attached segment.  `semOp` is never
zero in this repository. -/
inductive Op where
  | shmget (key size : Int) (flags : GetFlags)
  | shmat (shmid : Int)
  | shmdt (memory : Int)
  | shmRmid (shmid : Int)
  | semget (key nsems : Int) (flags : GetFlags)
  | semop (semid : Int) (semNum : Nat) (semOp : Int) (flags : SemFlags)
  | getval (semid : Int) (semNum : Nat)
  | semRmid (semid : Int)
  | store (memory index : Int) (value : Ptr)
  | load (memory index : Int)
deriving DecidableEq

abbrev Op.Res : Op -> Type
  | Op.store _ _ _ => Unit
  | Op.load _ _ => Ptr
  | _ => Answer

/-- A shared memory segment.  `attached` lists its mappings by process, and a
marked segment lives until the last of them is gone. -/
structure Segment where
  key : Int
  size : Nat
  memory : Int -> Ptr
  attached : List Pid
  marked : Bool

/-- A semaphore set: values by number, undo adjustments by process. -/
structure SemSet where
  key : Int
  val : Nat -> Int
  adj : Pid -> Nat -> Int

/-- Objects by identifier and identifiers by key.  An address returned by
`shmat` is represented by the identifier of the segment it maps. -/
structure Kernel where
  shmmax : Nat
  segs : Int -> Option Segment
  shmKeys : Int -> Option Int
  nextShm : Int
  sets : Int -> Option SemSet
  semKeys : Int -> Option Int
  nextSem : Int
  errno : Pid -> Errno

/-- The conversion of an `int` argument to `size_t`. -/
def sizeT (n : Int) : Nat := (n % 2 ^ 64).toNat

namespace SemSet

def new (key : Int) : SemSet where
  key := key
  val := fun _ => 0
  adj := fun _ _ => 0

/-- `semval += semOp`, with the opposite adjustment noted for `SEM_UNDO`. -/
def apply (set : SemSet) (p : Pid) (semNum : Nat) (semOp : Int)
    (undo : Bool) : SemSet where
  key := set.key
  val := Function.update set.val semNum (set.val semNum + semOp)
  adj :=
    if undo then
      Function.update set.adj p
        (Function.update (set.adj p) semNum (set.adj p semNum - semOp))
    else
      set.adj

/-- The adjustments of a process that ends, kept inside the legal range. -/
def undo (set : SemSet) (p : Pid) : SemSet where
  key := set.key
  val := fun semNum => max 0 (min SEMVMX (set.val semNum + set.adj p semNum))
  adj := Function.update set.adj p (fun _ => 0)

end SemSet

namespace Segment

def new (key : Int) (size : Nat) : Segment where
  key := key
  size := size
  memory := fun _ => 0
  attached := []
  marked := false

def release (seg : Segment) (p : Pid) : Segment where
  key := seg.key
  size := seg.size
  memory := seg.memory
  attached := seg.attached.filter (fun q => q ≠ p)
  marked := seg.marked

/-- A marked segment without mappings is destroyed. -/
def survive (seg : Segment) : Option Segment :=
  if seg.marked = true ∧ seg.attached = [] then none else some seg

end Segment

namespace Kernel

def empty (shmmax : Nat) : Kernel where
  shmmax := shmmax
  segs := fun _ => none
  shmKeys := fun _ => none
  nextShm := 1
  sets := fun _ => none
  semKeys := fun _ => none
  nextSem := 1
  errno := fun _ => Errno.unset

def ok (k : Kernel) (p : Pid) (ret : Int) : Answer :=
  { ret := ret, errno := k.errno p }

def fail (k : Kernel) (p : Pid) (e : Errno) : Answer × Kernel :=
  ({ ret := -1, errno := e },
    { k with errno := Function.update k.errno p e })

def setSeg (k : Kernel) (id : Int) (seg : Option Segment) : Kernel :=
  { k with segs := Function.update k.segs id seg }

def setSem (k : Kernel) (id : Int) (set : Option SemSet) : Kernel :=
  { k with sets := Function.update k.sets id set }

def newSeg (k : Kernel) (key : Int) (size : Nat) : Kernel :=
  { k with
    segs := Function.update k.segs k.nextShm (some (Segment.new key size))
    shmKeys :=
      if key = IPC_PRIVATE then k.shmKeys
      else Function.update k.shmKeys key (some k.nextShm)
    nextShm := k.nextShm + 1 }

def newSem (k : Kernel) (key : Int) : Kernel :=
  { k with
    sets := Function.update k.sets k.nextSem (some (SemSet.new key))
    semKeys :=
      if key = IPC_PRIVATE then k.semKeys
      else Function.update k.semKeys key (some k.nextSem)
    nextSem := k.nextSem + 1 }

def shmCreate (k : Kernel) (p : Pid) (key size : Int) : Answer × Kernel :=
  if sizeT size < SHMMIN ∨ k.shmmax < sizeT size then
    k.fail p Errno.einval
  else
    (k.ok p k.nextShm, k.newSeg key (sizeT size))

/-- `shmget`: an existing key is refused under `IPC_CREAT | IPC_EXCL`, and is
too small for a larger request; a missing key needs `IPC_CREAT`. -/
def shmget (k : Kernel) (p : Pid) (key size : Int) (flags : GetFlags) :
    Answer × Kernel :=
  if key = IPC_PRIVATE then
    k.shmCreate p key size
  else
    match k.shmKeys key with
    | some id =>
        if flags.creat = true ∧ flags.excl = true then
          k.fail p Errno.eexist
        else
          match k.segs id with
          | none => k.fail p Errno.einval
          | some seg =>
              if seg.size < sizeT size then
                k.fail p Errno.einval
              else
                (k.ok p id, k)
    | none =>
        if flags.creat = true then
          k.shmCreate p key size
        else
          k.fail p Errno.enoent

/-- `semget`, for set sizes that always agree. -/
def semget (k : Kernel) (p : Pid) (key : Int) (flags : GetFlags) :
    Answer × Kernel :=
  if key = IPC_PRIVATE then
    (k.ok p k.nextSem, k.newSem key)
  else
    match k.semKeys key with
    | some id =>
        if flags.creat = true ∧ flags.excl = true then
          k.fail p Errno.eexist
        else
          (k.ok p id, k)
    | none =>
        if flags.creat = true then
          (k.ok p k.nextSem, k.newSem key)
        else
          k.fail p Errno.enoent

/-- `semop` and `semtimedop` with one operation; `none` is a sleeping call. -/
def semop (removed : Removed) (k : Kernel) (p : Pid) (semid : Int)
    (semNum : Nat) (semOp : Int) (flags : SemFlags) :
    Option (Answer × Kernel) :=
  match k.sets semid with
  | none => some (k.fail p removed.errno)
  | some set =>
      if set.val semNum + semOp < 0 then
        if flags.nowait = true ∨ flags.timed = true then
          some (k.fail p Errno.eagain)
        else
          none
      else if SEMVMX < set.val semNum + semOp then
        some (k.fail p Errno.erange)
      else
        some (k.ok p 0,
          k.setSem semid (some (set.apply p semNum semOp flags.undo)))

def getval (removed : Removed) (k : Kernel) (p : Pid) (semid : Int)
    (semNum : Nat) : Answer × Kernel :=
  match k.sets semid with
  | none => k.fail p removed.errno
  | some set => (k.ok p (set.val semNum), k)

/-- `semctl(semid, 0, IPC_RMID)`: the set is gone at once. -/
def semRmid (removed : Removed) (k : Kernel) (p : Pid) (semid : Int) :
    Answer × Kernel :=
  match k.sets semid with
  | none => k.fail p removed.errno
  | some set =>
      (k.ok p 0,
        { k.setSem semid none with
          semKeys :=
            if k.semKeys set.key = some semid then
              Function.update k.semKeys set.key none
            else k.semKeys })

/-- `shmctl(shmid, IPC_RMID, NULL)`: the key is free at once, the memory stays
until the last mapping is gone. -/
def shmRmid (removed : Removed) (k : Kernel) (p : Pid) (shmid : Int) :
    Answer × Kernel :=
  match k.segs shmid with
  | none => k.fail p removed.errno
  | some seg =>
      (k.ok p 0,
        { k.setSeg shmid (Segment.survive { seg with marked := true }) with
          shmKeys :=
            if k.shmKeys seg.key = some shmid then
              Function.update k.shmKeys seg.key none
            else k.shmKeys })

def shmat (removed : Removed) (k : Kernel) (p : Pid) (shmid : Int) :
    Answer × Kernel :=
  match k.segs shmid with
  | none => k.fail p removed.errno
  | some seg =>
      (k.ok p shmid,
        k.setSeg shmid (some { seg with attached := p :: seg.attached }))

def shmdt (k : Kernel) (p : Pid) (memory : Int) : Answer × Kernel :=
  match k.segs memory with
  | none => k.fail p Errno.einval
  | some seg =>
      if seg.attached.contains p = true then
        (k.ok p 0,
          k.setSeg memory
            (Segment.survive { seg with attached := seg.attached.erase p }))
      else
        k.fail p Errno.einval

/-- One atomic operation of process `p`.  An access through an address that is
not mapped has no result.  The end of a segment is not checked: an access
beyond it, which the hardware refuses behind the last page, goes to a slot of
its own. -/
def exec (removed : Removed) (p : Pid) :
    (op : Op) -> Kernel -> Option (op.Res × Kernel)
  | Op.shmget key size flags, k => some (k.shmget p key size flags)
  | Op.shmat shmid, k => some (k.shmat removed p shmid)
  | Op.shmdt memory, k => some (k.shmdt p memory)
  | Op.shmRmid shmid, k => some (k.shmRmid removed p shmid)
  | Op.semget key _ flags, k => some (k.semget p key flags)
  | Op.semop semid semNum semOp flags, k =>
      k.semop removed p semid semNum semOp flags
  | Op.getval semid semNum, k => some (k.getval removed p semid semNum)
  | Op.semRmid semid, k => some (k.semRmid removed p semid)
  | Op.store memory index value, k =>
      match k.segs memory with
      | none => none
      | some seg =>
          some ((),
            k.setSeg memory
              (some
                { seg with memory := Function.update seg.memory index value }))
  | Op.load memory index, k =>
      match k.segs memory with
      | none => none
      | some seg => some (seg.memory index, k)

/-- What the kernel does when process `p` ends, by itself or by a signal. -/
def exit (k : Kernel) (p : Pid) : Kernel :=
  { k with
    segs := fun id => (k.segs id).bind (fun seg => (seg.release p).survive)
    sets := fun id => (k.sets id).map (fun set => set.undo p) }

end Kernel

end Ipc
end UnixPrograms
