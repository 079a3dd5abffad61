import Mathlib.Logic.Function.Basic
import UnixPrograms.Foundation.Transition
import UnixPrograms.Backuper.Names

/-!
# A watched directory and its counterpart

The users change the files of the source directory, the kernel queues an event
for each change, and the backuper takes the events from the queue and runs the
code for them.  A step is one change, the reading of one event, or one
operation of the backuper's code.
-/

namespace UnixPrograms
namespace Backuper

open Foundation

/-- A directory of regular files: the contents of the files that exist. -/
abbrev Directory := FileName -> Option Bytes

/-!
## Events
-/

def IN_ISDIR : UInt32 := 0x40000000

def Handler.mask : Handler -> UInt32
  | eventCreate => IN_CREATE
  | eventDelete => IN_DELETE
  | eventModify => IN_MODIFY
  | eventMoveTo => IN_MOVED_TO
  | eventMoveFrom => IN_MOVED_FROM

/-- An event of a watched directory, under the name of its handler. -/
structure Notice where
  kind : Handler
  cookie : UInt32
  name : FileName
deriving DecidableEq

/-- The name field of a record: the kernel pads the terminated name to a
multiple of the size of the fixed part. -/
def FileName.field (name : FileName) : Bytes :=
  name.bytes ++
    zeros (EVENT_HEADER * (name.bytes.length / EVENT_HEADER + 1) -
      name.bytes.length)

theorem FileName.field_length (name : FileName) :
    name.field.length =
      EVENT_HEADER * (name.bytes.length / EVENT_HEADER + 1) := by
  have hlt := Nat.lt_mul_div_succ name.bytes.length
    (by decide : 0 < EVENT_HEADER)
  simp only [FileName.field, zeros, List.length_append, List.length_replicate]
  lia

theorem FileName.field_eq (name : FileName) :
    exists padding, name.field = name.bytes ++ 0 :: padding := by
  have hlt := Nat.lt_mul_div_succ name.bytes.length
    (by decide : 0 < EVENT_HEADER)
  rcases Nat.exists_eq_add_of_lt hlt with ⟨room, hroom⟩
  exists zeros room
  rw [FileName.field, hroom, Nat.add_assoc, Nat.add_sub_cancel_left]
  rfl

theorem FileName.cstr_field (name : FileName) :
    cstr name.field = name.bytes := by
  rcases name.field_eq with ⟨padding, heq⟩
  rw [heq, cstr_append_zero name.noNul]

def Notice.record (wd : UInt32) (notice : Notice) : Record where
  wd := wd
  mask := notice.kind.mask
  cookie := notice.cookie
  name := notice.name.field
  aligned := by
    rw [FileName.field_length]
    exact Nat.mul_mod_right _ _
  short := by
    have hshort := notice.name.short
    have hdiv := Nat.div_mul_le_self notice.name.bytes.length EVENT_HEADER
    rw [FileName.field_length]
    simp only [EVENT_HEADER, NAME_MAX] at hshort hdiv ⊢
    lia
  terminated := by
    intro _
    rcases notice.name.field_eq with ⟨padding, heq⟩
    simp [heq]

/-!
## Changes of the source directory
-/

inductive Change where
  | create (name : FileName) (content : Bytes)
  | rewrite (name : FileName) (content : Bytes)
  | delete (name : FileName)
  | moveInto (name : FileName) (content : Bytes) (cookie : UInt32)
  | moveOut (name : FileName) (cookie : UInt32)
  | rename (old new : FileName) (cookie : UInt32)
deriving DecidableEq

namespace Change

def possible (dir : Directory) : Change -> Bool
  | create name _ => (dir name).isNone
  | rewrite name _ => (dir name).isSome
  | delete name => (dir name).isSome
  | moveInto _ _ _ => true
  | moveOut name _ => (dir name).isSome
  | rename old _ _ => (dir old).isSome

def apply (dir : Directory) : Change -> Directory
  | create name content => Function.update dir name (some content)
  | rewrite name content => Function.update dir name (some content)
  | delete name => Function.update dir name none
  | moveInto name content _ => Function.update dir name (some content)
  | moveOut name _ => Function.update dir name none
  | rename old new _ =>
      if old = new then dir
      else Function.update (Function.update dir old none) new (dir old)

/-- The events of a change, in their order.  A name renamed to itself makes
none. -/
def notices : Change -> List Notice
  | create name _ => [⟨Handler.eventCreate, 0, name⟩]
  | rewrite name _ => [⟨Handler.eventModify, 0, name⟩]
  | delete name => [⟨Handler.eventDelete, 0, name⟩]
  | moveInto name _ cookie => [⟨Handler.eventMoveTo, cookie, name⟩]
  | moveOut name cookie => [⟨Handler.eventMoveFrom, cookie, name⟩]
  | rename old new cookie =>
      if old = new then []
      else [⟨Handler.eventMoveFrom, cookie, old⟩,
        ⟨Handler.eventMoveTo, cookie, new⟩]

end Change

/-!
## The operations of the backuper on the two directories
-/

structure Watch where
  wd : UInt32
  globals : Globals
deriving DecidableEq

def nameIn (dir path : Bytes) : Option FileName :=
  if (dir ++ [SLASH]).isPrefixOf path = true then
    FileName.ofBytes (path.drop (dir.length + 1))
  else none

@[simp] theorem nameIn_join (dir : Bytes) (name : FileName) :
    nameIn dir (dir ++ SLASH :: name.bytes) = some name := by
  have hsplit : dir ++ SLASH :: name.bytes = (dir ++ [SLASH]) ++ name.bytes := by
    simp
  have hlength : dir.length + 1 = (dir ++ [SLASH]).length := by simp
  rw [nameIn, hsplit, hlength, List.drop_left,
    if_pos (List.isPrefixOf_iff_prefix.mpr (List.prefix_append _ _))]
  exact name.ofBytes_bytes

@[simp] theorem nameIn_self (dir : Bytes) : nameIn dir dir = none := by
  have hlong : ¬ (dir ++ [SLASH]).isPrefixOf dir = true := by
    intro hfront
    have hle := (List.isPrefixOf_iff_prefix.mp hfront).length_le
    simp at hle
  rw [nameIn, if_neg hlong]

structure Chance where
  result : Int
  mode : UInt32
  pid : Nat
  array : Bytes
  stream : Option (List Dirent)
deriving DecidableEq

/-- What `lstat` may answer: a file of the directory is regular, a missing name
is neither regular nor a directory, and the directory is there. -/
def LstatAllows (watch : Watch) (source : Directory) (path : Bytes)
    (result : Int) (mode : UInt32) : Prop :=
  match nameIn watch.globals.srcPath path with
  | none => path = watch.globals.srcPath -> result = 0
  | some name =>
      if (source name).isSome = true then
        result = 0 ∧ mode &&& S_IFMT = S_IFREG
      else
        result = -1 ∧ mode &&& S_IFMT ≠ S_IFREG ∧ mode &&& S_IFMT ≠ S_IFDIR

instance (watch : Watch) (source : Directory) (path : Bytes) (result : Int)
    (mode : UInt32) : Decidable (LstatAllows watch source path result mode) :=
  match hname : nameIn watch.globals.srcPath path with
  | none =>
      decidable_of_iff (path = watch.globals.srcPath -> result = 0)
        (by simp only [LstatAllows, hname])
  | some name =>
      decidable_of_iff
        (if (source name).isSome = true then
          result = 0 ∧ mode &&& S_IFMT = S_IFREG
        else
          result = -1 ∧ mode &&& S_IFMT ≠ S_IFREG ∧ mode &&& S_IFMT ≠ S_IFDIR)
        (by simp only [LstatAllows, hname])

/-- `cp` of a file of the source directory into its counterpart.  Nothing
changes when the file is missing. -/
def cpInto (watch : Watch) (source dest : Directory) (path target : Bytes) :
    Directory :=
  match nameIn watch.globals.srcPath path with
  | none => dest
  | some name =>
      if (source name).isSome = true ∧ target = watch.globals.destPath then
        Function.update dest name (source name)
      else dest

def rmFrom (watch : Watch) (dest : Directory) (path : Bytes) : Directory :=
  match nameIn watch.globals.destPath path with
  | none => dest
  | some name => Function.update dest name none

def perform (watch : Watch) (source : Directory) (chance : Chance) :
    (op : Call) -> Directory -> Option (op.Answer × Directory)
  | Call.localArray, dest => some (chance.array, dest)
  | Call.log _, dest => some ((), dest)
  | Call.lstat path, dest =>
      if LstatAllows watch source path chance.result chance.mode then
        some ((chance.result, chance.mode), dest)
      else none
  | Call.opendir _, dest => some (chance.stream, dest)
  | Call.closedir, dest => some ((), dest)
  | Call.mkdir _ _, dest => some (chance.result, dest)
  | Call.cp path target, dest => some ((), cpInto watch source dest path target)
  | Call.rm path, dest => some ((), rmFrom watch dest path)
  | Call.fork, dest => some (chance.pid, dest)
  | Call.getpid, dest => some (chance.pid, dest)
  | Call.setgid _, dest => some ((), dest)
  | Call.killpg _ _, dest => some ((), dest)
  | Call.inotifyInit, dest => some (chance.result, dest)
  | Call.inotifyAddWatch _ _ _, dest => some (chance.result, dest)
  | Call.close _, dest => some ((), dest)
  | Call.usleep _, dest => some ((), dest)
  | Call.print _, dest => some ((), dest)
  | Call.openLog, dest => some (chance.result, dest)
  | Call.signal _, dest => some ((), dest)
  | Call.read _, dest => some ((chance.result, chance.array), dest)

/-!
## The system
-/

/-- The two directories, the queue of inotify, and what the backuper has still
to do for the event in its hand. -/
structure Mirror where
  source : Directory
  dest : Directory
  queue : List Notice
  hand : Code Globals

def Mirror.Quiet (s : Mirror) : Prop :=
  s.queue = [] ∧ exists g, s.hand = Program.ret g

inductive MirrorEvent where
  | change (c : Change)
  /-- `read` delivers one record, over what the array held. -/
  | take (stale : Bytes)
  | work (chance : Chance)
deriving DecidableEq

/-- The steps of the users and of the backuper.  The fuel is the one of
`copy_directory`. -/
def mirror (watch : Watch) (fuel : Nat) : Mirror -> MirrorEvent -> Option Mirror
  | s, MirrorEvent.change c =>
      if c.possible s.source = true then
        some
          { s with
            source := c.apply s.source
            queue := s.queue ++ c.notices }
      else none
  | s, MirrorEvent.take stale =>
      match s.hand, s.queue with
      | Program.ret g, notice :: queue =>
          some
            { s with
              queue := queue
              hand :=
                handleEvent fuel ((notice.record watch.wd).bytes ++ stale) 0 g }
      | _, _ => none
  | s, MirrorEvent.work chance =>
      (Program.step (perform watch s.source chance) s.hand s.dest).map
        (fun after => { s with hand := after.1, dest := after.2 })

def Mirror.start (watch : Watch) (agreed : Directory) : Mirror where
  source := agreed
  dest := agreed
  queue := []
  hand := Program.ret watch.globals

inductive MirrorMoves (watch : Watch) (fuel : Nat) (s : Mirror) :
    MirrorEvent -> Mirror -> Prop where
  | change {c : Change} :
      c.possible s.source = true ->
      MirrorMoves watch fuel s (MirrorEvent.change c)
        { s with
          source := c.apply s.source
          queue := s.queue ++ c.notices }
  | take {stale : Bytes} {g : Globals} {notice : Notice}
      {queue : List Notice} :
      s.hand = Program.ret g ->
      s.queue = notice :: queue ->
      MirrorMoves watch fuel s (MirrorEvent.take stale)
        { s with
          queue := queue
          hand :=
            handleEvent fuel ((notice.record watch.wd).bytes ++ stale) 0 g }
  | work {chance : Chance} {op : Call} {next : op.Answer -> Code Globals}
      {answer : op.Answer} {dest : Directory} :
      s.hand = Program.call op next ->
      perform watch s.source chance op s.dest = some (answer, dest) ->
      MirrorMoves watch fuel s (MirrorEvent.work chance)
        { s with
          hand := next answer
          dest := dest }

theorem MirrorMoves.of_step {watch : Watch} {fuel : Nat} {s s' : Mirror}
    {event : MirrorEvent} (h : mirror watch fuel s event = some s') :
    MirrorMoves watch fuel s event s' := by
  cases event with
  | change c =>
      rw [mirror] at h
      split at h
      case isTrue hpossible =>
        injection h with h
        rw [← h]
        exact MirrorMoves.change hpossible
      case isFalse _ => cases h
  | take stale =>
      rw [mirror] at h
      split at h
      case h_1 g notice queue hhand hqueue =>
        injection h with h
        rw [← h]
        exact MirrorMoves.take hhand hqueue
      case h_2 _ => cases h
  | work chance =>
      rw [mirror] at h
      rcases Option.map_eq_some_iff.mp h with ⟨⟨rest, dest⟩, hstep, heq⟩
      rw [← heq]
      cases hhand : s.hand with
      | ret g =>
          rw [hhand] at hstep
          cases hstep
      | halt reason =>
          rw [hhand] at hstep
          cases hstep
      | call op next =>
          rw [hhand] at hstep
          rcases Program.step_call_eq_some hstep with ⟨answer, hperform, hrest⟩
          rw [hrest]
          exact MirrorMoves.work hhand hperform

end Backuper
end UnixPrograms
