import UnixPrograms.Socket.UdpRouting

/-!
# Failing calls of the UDP master

What is left in the table by an iteration in which `recvfrom`, `pipe` or `fork`
fails.  Only the result of `pipe` is looked at: a failing `recvfrom` leaves an
empty request of the client 0, and a failing `fork` leaves its row.
-/

namespace UnixPrograms
namespace Socket

open Foundation

def CallsPipe (m : Master) (e : Event) : Prop :=
  findClient m e.clientId = none ∧ m.clientsCount < MAX_CLIENTS_COUNT

def FailsIn (m : Master) (e : Event) : Prop :=
  e.datagram = none ∨
    CallsPipe m e ∧ (e.pipeOk = false ∨ e.forkOk = false)

def HasSlave (m : Master) (i : Nat) : Prop :=
  exists slave pipe, slave ∈ m.host.slaves ∧ slave.pipe = some pipe ∧
    Holding m i pipe

/-- What a failed iteration is to do: it keeps the table, forks no process and
registers no id without a slave. -/
structure LeftAlone (m m' : Master) : Prop where
  count : m'.clientsCount = m.clientsCount
  rows : forall i, i < m.clientsCount -> m'.clients i = m.clients i
  slaves : m'.host.slaves = m.host.slaves
  served : forall i, i < m'.clientsCount ->
    (exists j, j < m.clientsCount ∧
      (m.clients j).clientId = (m'.clients i).clientId) ∨ HasSlave m' i

def Noticed (m : Master) (e : Event) : Prop :=
  CallsPipe m e -> e.pipeOk = true ->
    e.forkOk = false ∧ getCommand e.text = Command.quit ∧ e.writeOk = true

structure Untouched (m m' : Master) : Prop where
  count : m'.clientsCount = m.clientsCount
  rows : forall i, i < m.clientsCount -> m'.clients i = m.clients i
  slaves : m'.host.slaves = m.host.slaves
  files : forall fd f, m.host.file fd = some f -> m'.host.file fd = some f

section Failures

variable {m m' : Master} {e : Event} {position pipe : Nat}

theorem Untouched.leftAlone (h : Untouched m m') : LeftAlone m m' := by
  refine ⟨h.count, h.rows, h.slaves, fun i hi => Or.inl ?_⟩
  rw [h.count] at hi
  exact ⟨i, hi, by rw [h.rows i hi]⟩

theorem Untouched.hasSlave (h : Untouched m m') {i : Nat}
    (hi : i < m.clientsCount) (hslave : HasSlave m i) : HasSlave m' i := by
  rcases hslave with ⟨slave, pipe, hmem, hpipe, hholding⟩
  refine ⟨slave, pipe, h.slaves ▸ hmem, hpipe, ?_, ?_⟩
  · rw [h.rows i hi]
    exact h.files _ _ hholding.reader
  · rw [h.rows i hi]
    exact h.files _ _ hholding.writer

/-!
## The command of the iteration
-/

theorem write_frame {host host' : Host} {fd : Nat} {data : Bytes}
    (h : host.write fd data = some host') :
    host'.slaves = host.slaves ∧ host'.fds = host.fds := by
  rw [Host.write] at h
  split at h
  · injection h with h
    rw [← h]
    exact ⟨rfl, rfl⟩
  · cases h

theorem serve_untouched {writeOk : Bool}
    (h : getCommand m.data ≠ Command.quit ∨ writeOk = false) :
    Untouched m (serve writeOk m position) := by
  by_cases hfindall : getCommand m.data = Command.findall
  · rw [serve_of_findall writeOk m position hfindall]
    exact ⟨rfl, fun _ _ => rfl, rfl, fun _ _ hfile => hfile⟩
  · have hsame : Untouched m m :=
      ⟨rfl, fun _ _ => rfl, rfl, fun _ _ hfile => hfile⟩
    cases hok : writeOk with
    | false =>
        have hserve : serve false m position = m := by
          rw [serve]
          cases hcommand : getCommand m.data with
          | findall => exact absurd hcommand hfindall
          | _ => rfl
        rw [hserve]
        exact hsame
    | true =>
        have hquit : getCommand m.data ≠ Command.quit := by
          rcases h with hquit | hfails
          · exact hquit
          · rw [hok] at hfails
            cases hfails
        cases hwrite : m.host.write (m.clients position).pipesFromMaster.2
            (cstr m.data) with
        | none =>
            have hserve : serve true m position = m := by
              rw [serve]
              cases hcommand : getCommand m.data with
              | findall => exact absurd hcommand hfindall
              | _ => simp only [if_true, hwrite]
            rw [hserve]
            exact hsame
        | some host =>
            have hserve : serve true m position = { m with host := host } := by
              rw [serve]
              cases hcommand : getCommand m.data with
              | findall => exact absurd hcommand hfindall
              | quit => exact absurd hcommand hquit
              | _ => simp [hwrite]
            rcases write_frame hwrite with ⟨hslaves, hfds⟩
            rw [hserve]
            refine ⟨rfl, fun _ _ => rfl, hslaves, ?_⟩
            intro fd f hfile
            rw [Host.file] at hfile ⊢
            rw [hfds]
            exact hfile

theorem text_of_failing (h : e.datagram = none) :
    getCommand e.text = Command.unknown := by
  have htext : e.text = [] := by
    rw [Event.text, h]
    decide
  rw [htext]
  rfl

theorem command_received (m : Master) (e : Event) :
    getCommand (received m e).data = getCommand e.text :=
  getCommand_congr ((cstr_received m e).trans (by
    rw [← cstr_received m e, cstr_cstr]))

theorem untouched_received (m : Master) (e : Event) :
    Untouched m (received m e) :=
  ⟨rfl, fun _ _ => rfl, rfl, fun _ _ hfile => hfile⟩

theorem Untouched.trans {m'' : Master} (h : Untouched m m')
    (h' : Untouched m' m'') : Untouched m m'' where
  count := h'.count.trans h.count
  rows := fun i hi => (h'.rows i (h.count ▸ hi)).trans (h.rows i hi)
  slaves := h'.slaves.trans h.slaves
  files := fun fd f hfile => h'.files fd f (h.files fd f hfile)

/-!
## The row of a new client

The row is counted before `fork` is called, and it stays whatever `fork`
returns.
-/

theorem pipe_fresh {host : Host} {fd : Nat} {f : File}
    (h : host.file fd = some f) : fd ≠ host.pipe.1.1 ∧ fd ≠ host.pipe.1.2 := by
  constructor
  · intro heq
    rw [heq] at h
    exact absurd h (by
      change host.file (Host.lowest host.fds) ≠ some f
      rw [Host.file_lowest]
      simp)
  · intro heq
    have hkept := Host.openFile_file_of_some
      (File.reader host.pipes.length) h
    rw [heq] at hkept
    exact absurd hkept (by
      change Host.file _ (Host.lowest (Host.openFile host _).2.fds) ≠ some f
      rw [Host.file_lowest]
      simp)

structure Counted (forkOk : Bool) (m m' : Master) : Prop where
  count : m'.clientsCount = m.clientsCount + 1
  others : forall i, i ≠ m.clientsCount -> m'.clients i = m.clients i
  holding : Holding m' m.clientsCount m.host.pipes.length
  fresh : forall fd f, m.host.file fd = some f ->
    fd ≠ (m'.clients m.clientsCount).pipesFromMaster.1 ∧
      fd ≠ (m'.clients m.clientsCount).pipesFromMaster.2
  files : forall fd f, m.host.file fd = some f -> m'.host.file fd = some f
  slaves : m'.host.slaves = m.host.slaves <-> forkOk = false
  data : m'.data = m.data

theorem counted (forkOk : Bool) (client : Int)
    (hroom : m.clientsCount < MAX_CLIENTS_COUNT) :
    Counted forkOk m
      (connect forkOk (addClient true m client).2 client).2 := by
  rw [addClient_room client hroom]
  have hreader := Host.pipe_reader m.host
  have hwriter := Host.pipe_writer m.host
  constructor
  case count => rfl
  case others =>
    intro i hi
    simp [connect, setRow, hi]
  case holding =>
    constructor
    case reader =>
      simp only [connect, setRow, Function.update_self]
      cases forkOk with
      | false => exact Host.openFile_file_of_some _ hreader
      | true => exact Host.openFile_file_of_some _ hreader
    case writer =>
      simp only [connect, setRow, Function.update_self]
      cases forkOk with
      | false => exact Host.openFile_file_of_some _ hwriter
      | true => exact Host.openFile_file_of_some _ hwriter
  case fresh =>
    intro fd f hfile
    simp only [connect, setRow, Function.update_self]
    exact pipe_fresh hfile
  case files =>
    intro fd f hfile
    simp only [connect, setRow, Function.update_self]
    cases forkOk with
    | false => exact Host.openFile_file_of_some _ (Host.pipe_file_of_some hfile)
    | true => exact Host.openFile_file_of_some _ (Host.pipe_file_of_some hfile)
  case slaves =>
    cases forkOk with
    | false => exact iff_of_true rfl rfl
    | true =>
        refine iff_of_false ?_ (by decide)
        simp [connect, setRow, Host.fork]
  case data => rfl

theorem counted_disconnected (h : Counted false m m') :
    Untouched m (clientDisconnect (written m' m.host.pipes.length)
      m.clientsCount) := by
  have hgone := disconnected (written m' m.host.pipes.length) m.clientsCount
  have hlast : (written m' m.host.pipes.length).clientsCount - 1 =
      m.clientsCount := by
    change m'.clientsCount - 1 = m.clientsCount
    rw [h.count]
    rfl
  constructor
  case count => rw [hgone.count, hlast]
  case rows =>
    intro i hi
    rw [hgone.rows i (by rw [hlast]; exact hi), moved,
      if_neg (Nat.ne_of_lt hi)]
    exact h.others i (Nat.ne_of_lt hi)
  case slaves => rw [hgone.slaves]; exact h.slaves.mpr rfl
  case files =>
    intro fd f hfile
    rcases h.fresh fd f hfile with ⟨hinput, houtput⟩
    rw [hgone.kept fd hinput houtput]
    exact h.files fd f hfile

/-!
## The iteration
-/

theorem iteration_of_known (h : findClient m e.clientId = some position) :
    iteration m e = serve e.writeOk (received m e) position := by
  have hfind : findClient (received m e) e.clientId = some position := h
  rw [iteration_eq, hfind]

theorem iteration_of_failing_pipe (h : CallsPipe m e)
    (hpipe : e.pipeOk = false) : Untouched m (iteration m e) := by
  have hfind : findClient (received m e) e.clientId = none := h.left
  have hroom : ¬ MAX_CLIENTS_COUNT ≤ (received m e).clientsCount :=
    Nat.not_le.mpr h.right
  rw [iteration_eq, hfind, addClient, if_neg hroom, hpipe]
  constructor
  case count => rfl
  case rows =>
    intro i hi
    exact Function.update_of_ne (Nat.ne_of_lt hi) _ _
  case slaves => rfl
  case files => exact fun _ _ hfile => hfile

theorem iteration_of_pipe (h : CallsPipe m e) (hpipe : e.pipeOk = true) :
    exists m', Counted e.forkOk (received m e) m' ∧
      iteration m e = serve e.writeOk m' m.clientsCount := by
  have hfind : findClient (received m e) e.clientId = none := h.left
  have hroom : (received m e).clientsCount < MAX_CLIENTS_COUNT := h.right
  refine ⟨_, counted e.forkOk e.clientId hroom, ?_⟩
  rw [iteration_eq, hfind, hpipe, addClient_room e.clientId hroom]
  rfl

theorem new_row_iff (h : CallsPipe m e) (hpipe : e.pipeOk = true) :
    (LeftAlone m (iteration m e) <->
      e.forkOk = false ∧ getCommand e.text = Command.quit ∧
        e.writeOk = true) ∧
      (LeftAlone m (iteration m e) -> Untouched m (iteration m e)) := by
  rcases iteration_of_pipe h hpipe with ⟨m1, hcounted, hserve⟩
  have hcommand : getCommand m1.data = getCommand e.text := by
    rw [hcounted.data, command_received]
  rw [hserve]
  by_cases hquit : getCommand e.text = Command.quit ∧ e.writeOk = true
  · have hfindall : getCommand m1.data ≠ Command.findall := by
      rw [hcommand, hquit.left]
      decide
    have hgone : serve e.writeOk m1 m.clientsCount =
        clientDisconnect (written m1 m.host.pipes.length) m.clientsCount := by
      rw [hquit.right]
      exact (serve_of_holding hfindall hcounted.holding).trans
        (if_pos (hcommand.trans hquit.left))
    rw [hgone]
    have hslaves : (clientDisconnect (written m1 m.host.pipes.length)
        m.clientsCount).host.slaves = m1.host.slaves :=
      (disconnected _ _).slaves
    have hall : e.forkOk = false -> Untouched m
        (clientDisconnect (written m1 m.host.pipes.length)
          m.clientsCount) := by
      intro hfork
      rw [hfork] at hcounted
      exact (untouched_received m e).trans (counted_disconnected hcounted)
    have hfork : LeftAlone m
        (clientDisconnect (written m1 m.host.pipes.length) m.clientsCount) ->
          e.forkOk = false :=
      fun hleft => hcounted.slaves.mp (hslaves.symm.trans hleft.slaves)
    exact ⟨⟨fun hleft => ⟨hfork hleft, hquit⟩,
      fun hcond => (hall hcond.left).leftAlone⟩,
      fun hleft => hall (hfork hleft)⟩
  · have hstays : getCommand m1.data ≠ Command.quit ∨ e.writeOk = false := by
      rw [hcommand]
      by_cases htext : getCommand e.text = Command.quit
      · exact Or.inr (Bool.eq_false_iff.mpr (fun hok => hquit ⟨htext, hok⟩))
      · exact Or.inl htext
    have hcount : ¬ LeftAlone m (serve e.writeOk m1 m.clientsCount) := by
      intro hleft
      have hsame := hleft.count
      rw [(@serve_untouched _ m.clientsCount _ hstays).count,
        hcounted.count] at hsame
      exact absurd hsame (Nat.succ_ne_self _)
    exact ⟨iff_of_false hcount (fun hcond => hquit hcond.right),
      fun hleft => absurd hleft hcount⟩

/-- A failed iteration leaves the table as it was exactly when the failure is
noticed or made good by a quit; every row that had its slave has it then. -/
theorem failed_step_iff (hfails : FailsIn m e) :
    (LeftAlone m (iteration m e) <-> Noticed m e) ∧
      (Noticed m e -> forall i, i < m.clientsCount ->
        HasSlave m i -> HasSlave (iteration m e) i) := by
  have hboth : (LeftAlone m (iteration m e) <-> Noticed m e) ∧
      (LeftAlone m (iteration m e) -> Untouched m (iteration m e)) := by
    by_cases hcalls : CallsPipe m e
    · cases hpipe : e.pipeOk with
      | false =>
          have huntouched := iteration_of_failing_pipe hcalls hpipe
          refine ⟨iff_of_true huntouched.leftAlone ?_, fun _ => huntouched⟩
          intro _ hok
          rw [hpipe] at hok
          cases hok
      | true =>
          rcases new_row_iff hcalls hpipe with ⟨hiff, huntouched⟩
          refine ⟨hiff.trans ?_, huntouched⟩
          exact ⟨fun h _ _ => h, fun h => h hcalls hpipe⟩
    · have huntouched : Untouched m (iteration m e) := by
        cases hfind : findClient m e.clientId with
        | none =>
            have hfull : MAX_CLIENTS_COUNT ≤ m.clientsCount :=
              Nat.not_lt.mp (fun hroom => hcalls ⟨hfind, hroom⟩)
            rw [iteration_full hfind hfull]
            exact untouched_received m e
        | some position =>
            have hnone : e.datagram = none :=
              hfails.resolve_right (fun h => hcalls h.left)
            have hcommand : getCommand (received m e).data ≠ Command.quit := by
              rw [command_received, text_of_failing hnone]
              decide
            rw [iteration_of_known hfind]
            exact (untouched_received m e).trans
              (serve_untouched (Or.inl hcommand))
      exact ⟨iff_of_true huntouched.leftAlone (fun h => absurd h hcalls),
        fun _ => huntouched⟩
  refine ⟨hboth.left, fun hnoticed i hi hslave => ?_⟩
  exact (hboth.right (hboth.left.mpr hnoticed)).hasSlave hi hslave

end Failures

theorem failed_step_iff_pipe :
    LeftAlone (Master.start 3 100)
      (iteration (Master.start 3 100)
        { datagram := some (masked (List.replicate IDSZ 49)),
          pipeOk := false,
          forkOk := true,
          writeOk := true }) := by
  have hcalls : CallsPipe (Master.start 3 100)
      { datagram := some (masked (List.replicate IDSZ 49)),
        pipeOk := false,
        forkOk := true,
        writeOk := true } := ⟨rfl, by decide⟩
  refine (failed_step_iff (Or.inr ⟨hcalls, Or.inl rfl⟩)).left.mpr ?_
  intro _ hok
  cases hok

def failingReceive : Event where
  datagram := none
  pipeOk := true
  forkOk := true
  writeOk := true

def failingFork : Event where
  datagram := some []
  pipeOk := true
  forkOk := false
  writeOk := true

/-- A failing `recvfrom` registers the id 0 and forks a slave for it; a failing
`fork` leaves a row that no slave serves. -/
theorem failures_unnoticed :
    FailsIn (Master.start 3 100) failingReceive ∧
      (iteration (Master.start 3 100) failingReceive).clientsCount = 1 ∧
      (iteration (Master.start 3 100) failingReceive).host.slaves.length = 1 ∧
      ¬ LeftAlone (Master.start 3 100)
        (iteration (Master.start 3 100) failingReceive) ∧
      FailsIn (Master.start 3 100) failingFork ∧
      (iteration (Master.start 3 100) failingFork).clientsCount = 1 ∧
      (iteration (Master.start 3 100) failingFork).host.slaves = [] := by
  have hcount :
      (iteration (Master.start 3 100) failingReceive).clientsCount = 1 := by
    decide +kernel
  refine ⟨Or.inl rfl, hcount, by decide +kernel, ?_,
    Or.inr ⟨⟨rfl, by decide⟩, Or.inr rfl⟩, by decide +kernel,
    by decide +kernel⟩
  intro hleft
  have hsame := hleft.count
  rw [hcount] at hsame
  cases hsame

end Socket
end UnixPrograms
