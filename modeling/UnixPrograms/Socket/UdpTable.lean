import UnixPrograms.Socket.UdpMaster

/-!
# Rows and descriptors of the UDP master

What the system calls do to the descriptors, and what admitting a client and
disconnecting one do to the rows of the table.
-/

namespace UnixPrograms
namespace Socket

open Foundation

/-!
## Descriptors
-/

namespace Host

theorem file_lowest (host : Host) : host.file (lowest host.fds) = none := by
  unfold file lowest
  by_cases h : host.fds.findIdx (fun file => file.isNone) < host.fds.length
  · have hfree := List.findIdx_getElem (w := h)
    rw [List.getElem?_eq_getElem h]
    simpa using hfree
  · rw [List.getElem?_eq_none (by lia)]
    rfl

theorem openFile_file_self (host : Host) (f : File) :
    (host.openFile f).2.file (host.openFile f).1 = some f := by
  simp only [openFile, file]
  by_cases h : lowest host.fds < host.fds.length
  · simp [h]
  · have heq : lowest host.fds = host.fds.length := by
      have hle : lowest host.fds ≤ host.fds.length := List.findIdx_le_length
      lia
    simp [heq]

theorem openFile_file_of_some {host : Host} {fd : Nat} {g : File} (f : File)
    (h : host.file fd = some g) : (host.openFile f).2.file fd = some g := by
  have hne : fd ≠ lowest host.fds := by
    intro heq
    rw [heq, file_lowest] at h
    cases h
  simp only [openFile, file] at h ⊢
  by_cases hlt : lowest host.fds < host.fds.length
  · simp only [hlt, if_true]
    rw [List.getElem?_set_ne (Ne.symm hne)]
    exact h
  · simp only [hlt, if_false]
    cases hget : host.fds[fd]? with
    | none =>
        rw [hget] at h
        cases h
    | some slot =>
        have hbound : fd < host.fds.length :=
          (List.getElem?_eq_some_iff.mp hget).choose
        rw [List.getElem?_append_left hbound, hget]
        rw [hget] at h
        exact h

@[simp] theorem openFile_slaves (host : Host) (f : File) :
    (host.openFile f).2.slaves = host.slaves := rfl

theorem close_file_of_ne (host : Host) {fd other : Nat} (h : other ≠ fd) :
    (host.close fd).file other = host.file other := by
  unfold close file
  rw [List.getElem?_set_ne (Ne.symm h)]

theorem file_of_close {host : Host} {fd other : Nat} {f : File}
    (h : (host.close fd).file other = some f) : host.file other = some f := by
  by_cases heq : other = fd
  · subst heq
    unfold close file at h
    by_cases hlt : other < host.fds.length
    · simp [hlt] at h
    · rw [List.getElem?_eq_none (by simpa using hlt)] at h
      cases h
  · rwa [close_file_of_ne host heq] at h

def writes (host : Host) (pipe : Nat) : List Bytes :=
  (host.pipes[pipe]?).getD []

def latestSlave (host : Host) (client : Int) : Option Slave :=
  (host.slaves.filter (fun slave => slave.client = client)).getLast?

theorem pipe_reader (host : Host) :
    host.pipe.2.file host.pipe.1.1 =
      some (File.reader host.pipes.length) := by
  exact openFile_file_of_some _ (openFile_file_self host _)

theorem pipe_writer (host : Host) :
    host.pipe.2.file host.pipe.1.2 =
      some (File.writer host.pipes.length) := by
  exact openFile_file_self _ _

theorem pipe_file_of_some {host : Host} {fd : Nat} {f : File}
    (h : host.file fd = some f) : host.pipe.2.file fd = some f := by
  exact openFile_file_of_some _ (openFile_file_of_some _ h)

@[simp] theorem pipe_slaves (host : Host) :
    host.pipe.2.slaves = host.slaves := rfl

end Host

/-!
## Admission
-/

/-- A new client has got the next row, a new pipe and a slave. -/
structure Admitted (m m' : Master) (client : Int) : Prop where
  count : m'.clientsCount = m.clientsCount + 1
  others : forall i, i ≠ m.clientsCount -> m'.clients i = m.clients i
  id : (m'.clients m.clientsCount).clientId = client
  reader : m'.host.file (m'.clients m.clientsCount).pipesFromMaster.1 =
    some (File.reader m.host.pipes.length)
  writer : m'.host.file (m'.clients m.clientsCount).pipesFromMaster.2 =
    some (File.writer m.host.pipes.length)
  files : forall fd f, m.host.file fd = some f -> m'.host.file fd = some f
  pipes : m'.host.pipes = m.host.pipes ++ [[]]
  slave : exists pid : Nat, (m'.clients m.clientsCount).pid = pid ∧
    m'.host.slaves =
      m.host.slaves ++
        [{ pid := pid, client := client, pipe := some m.host.pipes.length }]
  data : m'.data = m.data

theorem addClient_full (pipeOk : Bool) {m : Master} (client : Int)
    (hfull : MAX_CLIENTS_COUNT ≤ m.clientsCount) :
    addClient pipeOk m client = (none, m) := by
  unfold addClient
  rw [if_pos hfull]

theorem addClient_room {m : Master} (client : Int)
    (hroom : m.clientsCount < MAX_CLIENTS_COUNT) :
    addClient true m client =
      (some m.clientsCount,
        { setRow m m.clientsCount
            { m.clients m.clientsCount with
              clientId := client
              pipesFromMaster := m.host.pipe.1 } with
          host := m.host.pipe.2 }) := by
  unfold addClient
  rw [if_neg (by lia), if_pos rfl]
  simp [setRow]

theorem admitted {m : Master} (client : Int)
    (hroom : m.clientsCount < MAX_CLIENTS_COUNT) :
    Admitted m (connect true (addClient true m client).2 client).2 client := by
  rw [addClient_room client hroom]
  have hreader := Host.pipe_reader m.host
  have hwriter := Host.pipe_writer m.host
  refine ⟨rfl, ?_, ?_, ?_, ?_, ?_, rfl, ?_, rfl⟩
  · intro i hi
    simp [connect, setRow, hi]
  · simp [connect, setRow]
  · simp only [connect, setRow, Function.update_self, if_true]
    exact Host.openFile_file_of_some _ hreader
  · simp only [connect, setRow, Function.update_self, if_true]
    exact Host.openFile_file_of_some _ hwriter
  · intro fd f hfile
    simp only [connect, setRow, Function.update_self, if_true]
    exact Host.openFile_file_of_some _ (Host.pipe_file_of_some hfile)
  · refine ⟨m.host.pipe.2.nextPid + 1, ?_, ?_⟩
    · simp [connect, setRow, Host.fork]
    · simp [connect, setRow, Host.fork, hreader]

/-!
## Disconnection
-/

/-- The row that is found at position `i` after the row at `position` has been
freed: the last row moves there. -/
def moved (m : Master) (position i : Nat) : Nat :=
  if i = position then m.clientsCount - 1 else i

structure Disconnected (m m' : Master) (position : Nat) : Prop where
  count : m'.clientsCount = m.clientsCount - 1
  rows : forall i, i < m.clientsCount - 1 ->
    m'.clients i = m.clients (moved m position i)
  closed : forall fd f, m'.host.file fd = some f -> m.host.file fd = some f
  kept : forall fd, fd ≠ (m.clients position).pipesFromMaster.1 ->
    fd ≠ (m.clients position).pipesFromMaster.2 ->
    m'.host.file fd = m.host.file fd
  pipes : m'.host.pipes = m.host.pipes
  slaves : m'.host.slaves = m.host.slaves

theorem clientDisconnect_host (m : Master) (position : Nat) :
    (clientDisconnect m position).host =
      (m.host.close (m.clients position).pipesFromMaster.1).close
        (m.clients position).pipesFromMaster.2 := by
  unfold clientDisconnect
  by_cases hlast : m.clientsCount - 1 ≠ position
  · simp [setRow, hlast]
  · simp [setRow, hlast]

theorem clientDisconnect_count (m : Master) (position : Nat) :
    (clientDisconnect m position).clientsCount = m.clientsCount - 1 := by
  unfold clientDisconnect
  by_cases hlast : m.clientsCount - 1 ≠ position
  · simp [setRow, hlast]
  · simp [setRow, hlast]

theorem clientDisconnect_clients {m : Master} (position : Nat) {i : Nat}
    (hi : i < m.clientsCount - 1) :
    (clientDisconnect m position).clients i =
      m.clients (moved m position i) := by
  unfold clientDisconnect moved
  by_cases hlast : m.clientsCount - 1 ≠ position
  · have hne : i ≠ m.clientsCount - 1 := by
      lia
    by_cases hi' : i = position
    · subst hi'
      simp [setRow, hlast, hne]
    · simp [setRow, hlast, hne, hi']
  · have hi' : i ≠ position := by
      lia
    simp [setRow, hlast, hi']

theorem disconnected (m : Master) (position : Nat) :
    Disconnected m (clientDisconnect m position) position := by
  have hhost := clientDisconnect_host m position
  refine ⟨clientDisconnect_count m position,
    fun i hi => clientDisconnect_clients position hi, ?_, ?_, ?_, ?_⟩
  · intro fd f hfile
    rw [hhost] at hfile
    exact Host.file_of_close (Host.file_of_close hfile)
  · intro fd hinput houtput
    rw [hhost, Host.close_file_of_ne _ houtput, Host.close_file_of_ne _ hinput]
  · rw [hhost]
    rfl
  · rw [hhost]
    rfl

end Socket
end UnixPrograms
