import UnixPrograms.Socket.Lib

/-!
# The UDP master

One iteration of the loop of `master` in `UDP.c` as a function of the received
datagram and of the outcomes of its system calls.  Files are a table of
descriptors from which `pipe` and `open` take the lowest free ones; a pipe is
the list of writes made into it; every `fork` is recorded with the client it
was made for and the pipe that the slave reads.
-/

namespace UnixPrograms
namespace Socket

open Foundation

inductive File where
  | reader (pipe : Nat)
  | writer (pipe : Nat)
  | other
deriving DecidableEq

/-- A slave: its process, the client it was forked for, and the pipe behind
the descriptor it was given. -/
structure Slave where
  pid : Nat
  client : Int
  pipe : Option Nat
deriving DecidableEq

structure Host where
  fds : List (Option File)
  pipes : List (List Bytes)
  slaves : List Slave
  nextPid : Nat
  sent : List Bytes

namespace Host

def file (host : Host) (fd : Nat) : Option File :=
  (host.fds[fd]?).getD none

def lowest (fds : List (Option File)) : Nat :=
  fds.findIdx (fun file => file.isNone)

def openFile (host : Host) (file : File) : Nat × Host :=
  let fd := lowest host.fds
  (fd,
    { host with
      fds :=
        if fd < host.fds.length then host.fds.set fd (some file)
        else host.fds ++ [some file] })

def pipe (host : Host) : (Nat × Nat) × Host :=
  let fresh := host.pipes.length
  let (input, host) := host.openFile (File.reader fresh)
  let (output, host) := host.openFile (File.writer fresh)
  ((input, output), { host with pipes := host.pipes ++ [[]] })

def close (host : Host) (fd : Nat) : Host :=
  { host with fds := host.fds.set fd none }

/-- `write`: it fails on a descriptor that is no writing end. -/
def write (host : Host) (fd : Nat) (data : Bytes) : Option Host :=
  match host.file fd with
  | some (File.writer pipe) =>
      some
        { host with
          pipes := host.pipes.modify pipe (fun writes => writes ++ [data]) }
  | _ => none

/-- `fork` of a slave that will read from the descriptor `input`. -/
def fork (host : Host) (client : Int) (input : Nat) : Nat × Host :=
  let pipe :=
    match host.file input with
    | some (File.reader pipe) => some pipe
    | _ => none
  let pid := host.nextPid + 1
  (pid,
    { host with
      slaves := host.slaves ++ [{ pid := pid, client := client, pipe := pipe }]
      nextPid := pid })

end Host

structure ClientInfo where
  pid : Int
  clientId : Int
  pipesFromMaster : Nat × Nat
deriving DecidableEq

/-- The globals of `UDP.c`, the local array `data`, and the system. -/
structure Master where
  clients : Nat -> ClientInfo
  clientsCount : Nat
  data : Bytes
  host : Host

/-- What one iteration meets: the datagram, or none when `recvfrom` fails, and
which of the other calls succeed. -/
structure Event where
  datagram : Option Bytes
  pipeOk : Bool
  forkOk : Bool
  writeOk : Bool

def Event.Succeeds (e : Event) : Prop :=
  e.datagram.isSome = true ∧ e.pipeOk = true ∧ e.forkOk = true ∧
    e.writeOk = true

def receiveBuf (datagram : Option Bytes) : Bytes :=
  match datagram with
  | none => zeros BUFSZ
  | some bytes =>
      let received := bytes.take (BUFSZ - 1)
      decode (received ++ zeros (BUFSZ - received.length))

def sendBuf (host : Host) (data : Bytes) : Bytes × Host :=
  let data := encode data
  (data, { host with sent := host.sent ++ [data.take BUFSZ] })

/-- The position of a client's row; `none` is -1. -/
def findClient (m : Master) (clientId : Int) : Option Nat :=
  (List.range m.clientsCount).find?
    (fun i => (m.clients i).clientId = clientId)

def setRow (m : Master) (position : Nat) (row : ClientInfo) : Master :=
  { m with clients := Function.update m.clients position row }

/-- The row of a new client, not yet counted; `none` is -1. -/
def addClient (pipeOk : Bool) (m : Master) (clientId : Int) :
    Option Nat × Master :=
  if MAX_CLIENTS_COUNT ≤ m.clientsCount then
    (none, m)
  else
    let m := setRow m m.clientsCount
      { m.clients m.clientsCount with clientId := clientId }
    if pipeOk = true then
      let (ends, host) := m.host.pipe
      let m := setRow m m.clientsCount
        { m.clients m.clientsCount with pipesFromMaster := ends }
      (some m.clientsCount, { m with host := host })
    else
      (none, m)

def clientDisconnect (m : Master) (position : Nat) : Master :=
  let m := setRow m position { m.clients position with clientId := 0 }
  let m := { m with host := m.host.close (m.clients position).pipesFromMaster.1 }
  let m := { m with host := m.host.close (m.clients position).pipesFromMaster.2 }
  let m := { m with clientsCount := m.clientsCount - 1 }
  if m.clientsCount ≠ position then
    let m := setRow m position (m.clients m.clientsCount)
    setRow m m.clientsCount { m.clients m.clientsCount with clientId := 0 }
  else
    m

/-- A new client's row is counted, its slave is forked, and the log file is
opened once more. -/
def connect (forkOk : Bool) (m : Master) (clientId : Int) : Nat × Master :=
  let position := m.clientsCount
  let m := { m with clientsCount := m.clientsCount + 1 }
  let pipeFromMaster := (m.clients position).pipesFromMaster.1
  let (pid, host) : Int × Host :=
    if forkOk = true then
      let (pid, host) := m.host.fork clientId pipeFromMaster
      ((pid : Int), host)
    else
      (-1, m.host)
  let (_, host) := host.openFile File.other
  (position,
    setRow { m with host := host } position
      { m.clients position with pid := pid })

def serve (writeOk : Bool) (m : Master) (position : Nat) : Master :=
  match getCommand m.data with
  | Command.findall =>
      let data := strcpy m.data (text ['s', 'e', 'r', 'v', 'e', 'r'])
      let (data, host) := sendBuf m.host data
      { m with data := data, host := host }
  | command =>
      match (if writeOk = true then
          m.host.write (m.clients position).pipesFromMaster.2 (cstr m.data)
        else none) with
      | none => m
      | some host =>
          let m := { m with host := host }
          if command = Command.quit then clientDisconnect m position else m

def iteration (m : Master) (e : Event) : Master :=
  let buffer := receiveBuf e.datagram
  let (clientId, data) := separateBuffer buffer m.data
  let m := { m with data := data }
  match findClient m clientId with
  | some position => serve e.writeOk m position
  | none =>
      match addClient e.pipeOk m clientId with
      | (none, m) => m
      | (some _, m) =>
          let (position, m) := connect e.forkOk m clientId
          serve e.writeOk m position

/-- The master after `fork` and daemon start, with some descriptors open. -/
def Master.start (openFds firstPid : Nat) : Master where
  clients := fun _ => { pid := 0, clientId := 0, pipesFromMaster := (0, 0) }
  clientsCount := 0
  data := zeros BUFSZ
  host :=
    { fds := List.replicate openFds (some File.other)
      pipes := []
      slaves := []
      nextPid := firstPid
      sent := [] }

def Master.serveAll (m : Master) (events : List Event) : Master :=
  events.foldl iteration m

end Socket
end UnixPrograms
