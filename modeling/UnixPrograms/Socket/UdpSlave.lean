import UnixPrograms.Foundation.Transition
import UnixPrograms.Socket.UdpMaster

/-!
# Master, pipe and slave of one client

The part of `UDP.c` and `server.c` behind the client's row: the master writes
commands into the pipe, the slave reads them with `read` and calls `handler`,
and SIGCHLD may run `sigchld_slave` between any two steps of the slave.  What
the commands print and what bash answers is left out.
-/

namespace UnixPrograms
namespace Socket

open Foundation

/-- Where the slave is; `data` is the buffer that `handler` was called with. -/
inductive SlavePoint where
  /-- In the `read` from the master's pipe. -/
  | reading
  /-- At the test of `*shellfd` in `handler`. -/
  | handler (data : Bytes)
  | bashHandler (data : Bytes) (command : Command)
  /-- At the write to the shell, with the descriptor already loaded. -/
  | bashWrite (data : Bytes) (command : Command) (fd : Int)
  | bashPoll (data : Bytes) (command : Command)
  | usualHandler (data : Bytes) (command : Command)
  /-- In `start_shell`, with `*shellfd` set. -/
  | startShell (data : Bytes)
  /-- Behind `start_shell`, with its result. -/
  | shellStarted (data : Bytes) (ret : Int)
  /-- In `send_data` and the message behind it, with the result of `handler`. -/
  | sendData (flag : Int)
  | ended
deriving DecidableEq

inductive Answer where
  | done
  | failed
  | opened (fd : Nat)
  | ready
deriving DecidableEq

def sigchldSlave (shellfd : Int) : Int :=
  if 0 < shellfd then -1 else shellfd

/-- One step of the slave outside `read`: the new `shellfd` and point. -/
def slaveStep (shellfd : Int) : SlavePoint -> Answer -> Option (Int × SlavePoint)
  | SlavePoint.handler data, Answer.done =>
      let command := getCommand data
      some
        (shellfd,
          if 0 < shellfd then SlavePoint.bashHandler data command
          else SlavePoint.usualHandler data command)
  | SlavePoint.bashHandler data command, Answer.done =>
      some (shellfd, SlavePoint.bashWrite data command shellfd)
  | SlavePoint.bashWrite data command fd, Answer.done =>
      some
        (shellfd,
          if fd < 0 then SlavePoint.sendData (-1)
          else if command = Command.quit then SlavePoint.sendData 0
          else SlavePoint.bashPoll data command)
  | SlavePoint.bashPoll data command, Answer.ready =>
      some (shellfd, SlavePoint.bashPoll data command)
  | SlavePoint.bashPoll _ _, Answer.done =>
      some (shellfd, SlavePoint.sendData 1)
  | SlavePoint.usualHandler data Command.shell, Answer.opened fd =>
      some ((fd : Int), SlavePoint.startShell data)
  | SlavePoint.usualHandler data Command.shell, Answer.failed =>
      some (shellfd, SlavePoint.shellStarted data (-1))
  | SlavePoint.usualHandler _ command, Answer.done =>
      if command = Command.shell then none
      else
        some
          (shellfd,
            SlavePoint.sendData (if command = Command.quit then 0 else 1))
  | SlavePoint.startShell data, Answer.done =>
      some (shellfd, SlavePoint.shellStarted data 1)
  | SlavePoint.startShell data, Answer.failed =>
      some (shellfd, SlavePoint.shellStarted data (-1))
  | SlavePoint.shellStarted _ ret, Answer.done =>
      some
        (if 0 < shellfd ∧ 0 < ret then shellfd else -1, SlavePoint.sendData 1)
  | SlavePoint.sendData flag, Answer.done =>
      some
        (shellfd,
          if flag ≠ 0 then SlavePoint.reading else SlavePoint.ended)
  | _, _ => none

/-- The commands the master has still to serve, the pipe, whether the row has
been freed, and the slave with the buffers of its calls of `handler`. -/
structure Session where
  commands : List Bytes
  pipe : Bytes
  rowFreed : Bool
  shellfd : Int
  point : SlavePoint
  calls : List Bytes

def Session.start (commands : List Bytes) : Session where
  commands := commands
  pipe := []
  rowFreed := false
  shellfd := -1
  point := SlavePoint.reading
  calls := []

inductive SessionEvent where
  | master
  | read
  | slave (answer : Answer)
  | sigchld
deriving DecidableEq

def Session.serve (s : Session) (data : Bytes) (rest : List Bytes) : Session :=
  match getCommand data with
  | Command.findall => { s with commands := rest }
  | command =>
      { s with
        commands := rest
        pipe := s.pipe ++ cstr data
        rowFreed := s.rowFreed || decide (command = Command.quit) }

/-- `read` returns what is in the pipe, at most `BUFSZ` bytes of it. -/
def Session.read (s : Session) : Session :=
  let received := s.pipe.take BUFSZ
  let data := received ++ zeros (BUFSZ - received.length)
  { s with
    pipe := s.pipe.drop BUFSZ
    point := SlavePoint.handler data
    calls := s.calls ++ [data] }

def session (s : Session) : SessionEvent -> Option Session
  | SessionEvent.master =>
      match s.commands with
      | [] => none
      | data :: rest => some (s.serve data rest)
  | SessionEvent.read =>
      if s.point = SlavePoint.reading ∧ s.pipe ≠ [] then some s.read else none
  | SessionEvent.slave answer =>
      (slaveStep s.shellfd s.point answer).map
        (fun next => { s with shellfd := next.1, point := next.2 })
  | SessionEvent.sigchld => some { s with shellfd := sigchldSlave s.shellfd }

structure IsCommand (command : Bytes) : Prop where
  noNul : NoNul command
  nonempty : command ≠ []
  short : command.length ≤ 245
  written : getCommand command ≠ Command.findall

instance (command : Bytes) : Decidable (IsCommand command) :=
  decidable_of_iff
    ((command.all (fun b => b ≠ 0)) = true ∧ command ≠ [] ∧
      command.length ≤ 245 ∧ getCommand command ≠ Command.findall)
    ⟨fun h => ⟨fun b hb => by simpa using List.all_eq_true.mp h.left b hb,
        h.right.left, h.right.right.left, h.right.right.right⟩,
      fun h => ⟨List.all_eq_true.mpr (fun b hb => by simpa using h.noNul b hb),
        h.nonempty, h.short, h.written⟩⟩

def QuitsLast (commands : List Bytes) : Prop :=
  forall command, command ∈ commands.dropLast ->
    getCommand command ≠ Command.quit

instance (commands : List Bytes) : Decidable (QuitsLast commands) :=
  List.decidableBAll (fun command => getCommand command ≠ Command.quit) _

theorem QuitsLast.nothing_behind {commands before after : List Bytes}
    {command : Bytes} (h : QuitsLast commands)
    (hsplit : commands = before ++ command :: after)
    (hquit : getCommand command = Command.quit) : after = [] := by
  cases after with
  | nil => rfl
  | cons next after =>
      have hmem : command ∈ commands.dropLast := by
        rw [hsplit, List.dropLast_append_of_ne_nil (by simp),
          List.dropLast_cons_of_ne_nil (by simp)]
        exact List.mem_append_right before List.mem_cons_self
      exact absurd hquit (h command hmem)

/-!
## What one step does
-/

theorem master_cases {s s' : Session}
    (h : session s SessionEvent.master = some s') :
    exists data rest, s.commands = data :: rest ∧ s' = s.serve data rest := by
  cases hcommands : s.commands with
  | nil =>
      simp only [session, hcommands] at h
      cases h
  | cons data rest =>
      simp only [session, hcommands] at h
      injection h with h
      exact ⟨data, rest, rfl, h.symm⟩

theorem read_cases {s s' : Session} (h : session s SessionEvent.read = some s') :
    s.point = SlavePoint.reading ∧ s.pipe ≠ [] ∧ s' = s.read := by
  simp only [session] at h
  split at h
  · rename_i hcond
    injection h with h
    exact ⟨hcond.left, hcond.right, h.symm⟩
  · cases h

inductive Moves (shellfd : Int) : SlavePoint -> Int -> SlavePoint -> Prop where
  | shellRuns (data : Bytes) (h : 0 < shellfd) :
      Moves shellfd (SlavePoint.handler data) shellfd
        (SlavePoint.bashHandler data (getCommand data))
  | shellOff (data : Bytes) (h : ¬ 0 < shellfd) :
      Moves shellfd (SlavePoint.handler data) shellfd
        (SlavePoint.usualHandler data (getCommand data))
  | load (data : Bytes) (command : Command) :
      Moves shellfd (SlavePoint.bashHandler data command) shellfd
        (SlavePoint.bashWrite data command shellfd)
  | writeFails (data : Bytes) (command : Command) (fd : Int) (h : fd < 0) :
      Moves shellfd (SlavePoint.bashWrite data command fd) shellfd
        (SlavePoint.sendData (-1))
  | quitShell (data : Bytes) (fd : Int) (h : ¬ fd < 0) :
      Moves shellfd (SlavePoint.bashWrite data Command.quit fd) shellfd
        (SlavePoint.sendData 0)
  | written (data : Bytes) (command : Command) (fd : Int) (h : ¬ fd < 0)
      (hcommand : command ≠ Command.quit) :
      Moves shellfd (SlavePoint.bashWrite data command fd) shellfd
        (SlavePoint.bashPoll data command)
  | poll (data : Bytes) (command : Command) :
      Moves shellfd (SlavePoint.bashPoll data command) shellfd
        (SlavePoint.bashPoll data command)
  | pollEnds (data : Bytes) (command : Command) :
      Moves shellfd (SlavePoint.bashPoll data command) shellfd
        (SlavePoint.sendData 1)
  | quit (data : Bytes) :
      Moves shellfd (SlavePoint.usualHandler data Command.quit) shellfd
        (SlavePoint.sendData 0)
  | usual (data : Bytes) (command : Command) (hcommand : command ≠ Command.quit) :
      Moves shellfd (SlavePoint.usualHandler data command) shellfd
        (SlavePoint.sendData 1)
  | opened (data : Bytes) (fd : Nat) :
      Moves shellfd (SlavePoint.usualHandler data Command.shell) (fd : Int)
        (SlavePoint.startShell data)
  | openFails (data : Bytes) :
      Moves shellfd (SlavePoint.usualHandler data Command.shell) shellfd
        (SlavePoint.shellStarted data (-1))
  | started (data : Bytes) (ret : Int) :
      Moves shellfd (SlavePoint.startShell data) shellfd
        (SlavePoint.shellStarted data ret)
  | shellReady (data : Bytes) (ret shellfd' : Int) :
      Moves shellfd (SlavePoint.shellStarted data ret) shellfd'
        (SlavePoint.sendData 1)
  | again (flag : Int) (h : flag ≠ 0) :
      Moves shellfd (SlavePoint.sendData flag) shellfd SlavePoint.reading
  | leave : Moves shellfd (SlavePoint.sendData 0) shellfd SlavePoint.ended

theorem moves_of_slaveStep {shellfd shellfd' : Int} {point point' : SlavePoint}
    {answer : Answer}
    (h : slaveStep shellfd point answer = some (shellfd', point')) :
    Moves shellfd point shellfd' point' := by
  unfold slaveStep at h
  split at h
  case h_1 data =>
    injection h with h
    injection h with hfd hpoint
    rw [← hfd, ← hpoint]
    split
    · rename_i hpos
      exact Moves.shellRuns data hpos
    · rename_i hpos
      exact Moves.shellOff data hpos
  case h_2 data command =>
    cases h
    exact Moves.load data command
  case h_3 data command fd =>
    injection h with h
    injection h with hfd hpoint
    rw [← hfd, ← hpoint]
    split
    · rename_i hneg
      exact Moves.writeFails data command fd hneg
    · rename_i hneg
      split
      · rename_i hquit
        rw [hquit]
        exact Moves.quitShell data fd hneg
      · rename_i hquit
        exact Moves.written data command fd hneg hquit
  case h_4 data command =>
    cases h
    exact Moves.poll data command
  case h_5 data command =>
    cases h
    exact Moves.pollEnds data command
  case h_6 data fd =>
    cases h
    exact Moves.opened data fd
  case h_7 data =>
    cases h
    exact Moves.openFails data
  case h_8 data command =>
    split at h
    · cases h
    · injection h with h
      injection h with hfd hpoint
      rw [← hfd, ← hpoint]
      split
      · rename_i hquit
        rw [hquit]
        exact Moves.quit data
      · rename_i hquit
        exact Moves.usual data command hquit
  case h_9 data =>
    cases h
    exact Moves.started data 1
  case h_10 data =>
    cases h
    exact Moves.started data (-1)
  case h_11 data ret =>
    injection h with h
    injection h with hfd hpoint
    rw [← hpoint]
    exact Moves.shellReady data ret shellfd'
  case h_12 flag =>
    injection h with h
    injection h with hfd hpoint
    rw [← hfd, ← hpoint]
    split
    · rename_i hflag
      exact Moves.again flag hflag
    · rename_i hflag
      have hzero : flag = 0 := not_not.mp hflag
      rw [hzero]
      exact Moves.leave
  case h_13 => cases h

theorem slave_cases {s s' : Session} {answer : Answer}
    (h : session s (SessionEvent.slave answer) = some s') :
    exists shellfd point, Moves s.shellfd s.point shellfd point ∧
      s' = { s with shellfd := shellfd, point := point } := by
  rcases Option.map_eq_some_iff.mp h with ⟨⟨shellfd, point⟩, hstep, heq⟩
  exact ⟨shellfd, point, moves_of_slaveStep hstep, heq.symm⟩

theorem serve_of_written {s : Session} {data : Bytes} (rest : List Bytes)
    (h : getCommand data ≠ Command.findall) :
    s.serve data rest =
      { s with
        commands := rest
        pipe := s.pipe ++ cstr data
        rowFreed := s.rowFreed || decide (getCommand data = Command.quit) } := by
  unfold Session.serve
  split
  · rename_i hfindall
    exact absurd hfindall h
  · rfl

end Socket
end UnixPrograms
