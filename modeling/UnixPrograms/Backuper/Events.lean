import UnixPrograms.Foundation.LittleEndian

/-!
# The events buffer

The part of `backuper.c` between a `read` from inotify and the handlers: the
array of events, whose elements have the size of the fixed part of a record,
and `check_event` on each of them.
-/

namespace UnixPrograms
namespace Backuper

open Foundation

def EVENTS_SIZE : Nat := 64

/-- `sizeof(struct inotify_event)`; the name follows behind it. -/
def EVENT_HEADER : Nat := 16

def IN_MODIFY : UInt32 := 0x2
def IN_MOVED_FROM : UInt32 := 0x40
def IN_MOVED_TO : UInt32 := 0x80
def IN_CREATE : UInt32 := 0x100
def IN_DELETE : UInt32 := 0x200

/-- `struct inotify_event`, with the string that begins at `name`. -/
structure InotifyEvent where
  wd : UInt32
  mask : UInt32
  cookie : UInt32
  len : UInt32
  name : Bytes
deriving DecidableEq

def loadEvent (memory : Bytes) : InotifyEvent where
  wd := loadField memory 0
  mask := loadField memory 4
  cookie := loadField memory 8
  len := loadField memory 12
  name := cstr (memory.drop EVENT_HEADER)

inductive Handler where
  | eventCreate
  | eventDelete
  | eventModify
  | eventMoveTo
  | eventMoveFrom
deriving DecidableEq, Repr

def branchOf (mask len : UInt32) : Option Handler :=
  if mask &&& IN_CREATE ≠ 0 ∧ len ≠ 0 then some Handler.eventCreate
  else if mask &&& IN_DELETE ≠ 0 ∧ len ≠ 0 then some Handler.eventDelete
  else if mask &&& IN_MODIFY ≠ 0 ∧ len ≠ 0 then some Handler.eventModify
  else if mask &&& IN_MOVED_TO ≠ 0 ∧ len ≠ 0 then some Handler.eventMoveTo
  else if mask &&& IN_MOVED_FROM ≠ 0 ∧ len ≠ 0 then some Handler.eventMoveFrom
  else none

/-- A call of a handler, with the mask and the name of the event it is given. -/
structure Dispatch where
  handler : Handler
  mask : UInt32
  name : Bytes
deriving DecidableEq

def checkEvent (events : Bytes) (i : Nat) : Option Dispatch :=
  let event := loadEvent (events.drop (EVENT_HEADER * i))
  (branchOf event.mask event.len).map
    (fun handler =>
      { handler := handler, mask := event.mask, name := event.name })

/-- The `for` loop of `main` over the events from `i` on.  `leaves` tells in
which calls the process becomes the child for a new directory, which clears
`check_flag`. -/
def eventLoop (leaves : Dispatch -> Bool) (events : Bytes) :
    Nat -> Nat -> List Dispatch
  | 0, _ => []
  | count + 1, i =>
      match checkEvent events i with
      | none => eventLoop leaves events count (i + 1)
      | some dispatch =>
          if leaves dispatch = true then [dispatch]
          else dispatch :: eventLoop leaves events count (i + 1)

def handleRead (leaves : Dispatch -> Bool) (events received : Bytes) :
    List Dispatch :=
  let events := received ++ events.drop received.length
  let count := received.length / EVENT_HEADER
  eventLoop leaves events count 0

structure Record where
  wd : UInt32
  mask : UInt32
  cookie : UInt32
  name : Bytes
  aligned : name.length % EVENT_HEADER = 0
  short : name.length < 2 ^ 32
  terminated : name ≠ [] -> 0 ∈ name

def Record.len (record : Record) : UInt32 :=
  UInt32.ofNat record.name.length

def Record.bytes (record : Record) : Bytes :=
  fieldBytes record.wd ++ (fieldBytes record.mask ++
    (fieldBytes record.cookie ++ (fieldBytes record.len ++ record.name)))

def Record.dispatch (record : Record) : Option Dispatch :=
  (branchOf record.mask record.len).map
    (fun handler =>
      { handler := handler, mask := record.mask, name := cstr record.name })

/-- No block of the name, taken for the fixed part of a record, looks like an
event that is handled. -/
def QuietName (name : Bytes) : Prop :=
  forall j, j < name.length / EVENT_HEADER ->
    branchOf (loadField name (EVENT_HEADER * j + 4))
      (loadField name (EVENT_HEADER * j + 12)) = none

instance (name : Bytes) : Decidable (QuietName name) :=
  inferInstanceAs (Decidable (forall j, j < name.length / EVENT_HEADER -> _))

end Backuper
end UnixPrograms
