import UnixPrograms.Socket.UdpCommands

/-!
# The end of a session

A quit frees the client's row in the master and is to end the slave.  The
commands before it may be merged and cut by `read` as they please; the quit
itself is read alone.
-/

namespace UnixPrograms
namespace Socket

open Foundation

def Session.QuitRead (s : Session) : Prop :=
  s.rowFreed = true ∧ s.pipe = []

/-- A `read` behind the quit's write returns the quit, or no byte of it. -/
def QuitAlone (quit : Bytes) (s : Session) (e : SessionEvent) : Prop :=
  e = SessionEvent.read -> s.rowFreed = true ->
    (s.pipe = cstr quit ∧ s.pipe.length ≤ BUFSZ) ∨
      BUFSZ + strlen quit ≤ s.pipe.length

/-- The slave is between the test of `*shellfd` in `handler` and its use in
`bash_handler`. -/
def SlavePoint.isBashHandler : SlavePoint -> Bool
  | SlavePoint.bashHandler _ _ => true
  | _ => false

instance (quit : Bytes) (s : Session) (e : SessionEvent) :
    Decidable (QuitAlone quit s e) :=
  inferInstanceAs (Decidable (e = SessionEvent.read -> s.rowFreed = true ->
    (s.pipe = cstr quit ∧ s.pipe.length ≤ BUFSZ) ∨
      BUFSZ + strlen quit ≤ s.pipe.length))

/-- SIGCHLD does not arrive between the test of `*shellfd` and its use in the
call for the quit. -/
def NotBetween (s : Session) (e : SessionEvent) : Prop :=
  e = SessionEvent.sigchld -> s.QuitRead -> s.point.isBashHandler = false

instance (s : Session) (e : SessionEvent) : Decidable (NotBetween s e) :=
  inferInstanceAs (Decidable (e = SessionEvent.sigchld ->
    (s.rowFreed = true ∧ s.pipe = []) -> s.point.isBashHandler = false))

/-!
## The call for the quit
-/

inductive Quitting (shellfd : Int) : SlavePoint -> Prop where
  | handler (data : Bytes) (h : getCommand data = Command.quit) :
      Quitting shellfd (SlavePoint.handler data)
  | bashHandler (data : Bytes) (h : 0 < shellfd) :
      Quitting shellfd (SlavePoint.bashHandler data Command.quit)
  | bashWrite (data : Bytes) (fd : Int) (h : ¬ fd < 0) :
      Quitting shellfd (SlavePoint.bashWrite data Command.quit fd)
  | usualHandler (data : Bytes) :
      Quitting shellfd (SlavePoint.usualHandler data Command.quit)
  | sendData : Quitting shellfd (SlavePoint.sendData 0)
  | ended : Quitting shellfd SlavePoint.ended

inductive Missing (shellfd : Int) : SlavePoint -> Prop where
  | bashHandler (data : Bytes) (h : shellfd < 0) :
      Missing shellfd (SlavePoint.bashHandler data Command.quit)
  | bashWrite (data : Bytes) (fd : Int) (h : fd < 0) :
      Missing shellfd (SlavePoint.bashWrite data Command.quit fd)
  | sendData : Missing shellfd (SlavePoint.sendData (-1))
  | reading : Missing shellfd SlavePoint.reading

theorem Quitting.moves {shellfd shellfd' : Int} {point point' : SlavePoint}
    (h : Quitting shellfd point) (hmoves : Moves shellfd point shellfd' point') :
    Quitting shellfd' point' := by
  cases h with
  | handler data hquit =>
      cases hmoves with
      | shellRuns _ hpos =>
          rw [hquit]
          exact Quitting.bashHandler data hpos
      | shellOff _ hpos =>
          rw [hquit]
          exact Quitting.usualHandler data
  | bashHandler data hpos =>
      cases hmoves with
      | load =>
          exact Quitting.bashWrite data shellfd (not_lt.mpr (le_of_lt hpos))
  | bashWrite data fd hfd =>
      cases hmoves with
      | writeFails _ _ _ hneg => exact absurd hneg hfd
      | quitShell => exact Quitting.sendData
      | written _ _ _ _ hcommand => exact absurd rfl hcommand
  | usualHandler data =>
      cases hmoves with
      | quit => exact Quitting.sendData
      | usual _ _ hcommand => exact absurd rfl hcommand
  | sendData =>
      cases hmoves with
      | again _ hflag => exact absurd rfl hflag
      | leave => exact Quitting.ended
  | ended => cases hmoves

theorem Missing.moves {shellfd shellfd' : Int} {point point' : SlavePoint}
    (h : Missing shellfd point) (hmoves : Moves shellfd point shellfd' point') :
    Missing shellfd' point' := by
  cases h with
  | bashHandler data hneg =>
      cases hmoves with
      | load => exact Missing.bashWrite data shellfd hneg
  | bashWrite data fd hfd =>
      cases hmoves with
      | writeFails => exact Missing.sendData
      | quitShell _ _ hpos => exact absurd hfd hpos
      | written _ _ _ hpos _ => exact absurd hfd hpos
  | sendData =>
      cases hmoves with
      | again => exact Missing.reading
  | reading => cases hmoves

theorem Quitting.sigchld {shellfd : Int} {point : SlavePoint}
    (h : Quitting shellfd point) (hbetween : point.isBashHandler = false) :
    Quitting (sigchldSlave shellfd) point := by
  cases h with
  | handler data hquit => exact Quitting.handler data hquit
  | bashHandler data hpos => cases hbetween
  | bashWrite data fd hfd => exact Quitting.bashWrite data fd hfd
  | usualHandler data => exact Quitting.usualHandler data
  | sendData => exact Quitting.sendData
  | ended => exact Quitting.ended

theorem Quitting.missed {shellfd : Int} {point : SlavePoint}
    (h : Quitting shellfd point) (hbetween : point.isBashHandler ≠ false) :
    Missing (sigchldSlave shellfd) point := by
  cases h with
  | bashHandler data hpos =>
      apply Missing.bashHandler
      rw [sigchldSlave, if_pos hpos]
      decide
  | handler data hquit => exact absurd rfl hbetween
  | bashWrite data fd hfd => exact absurd rfl hbetween
  | usualHandler data => exact absurd rfl hbetween
  | sendData => exact absurd rfl hbetween
  | ended => exact absurd rfl hbetween

theorem Missing.sigchld {shellfd : Int} {point : SlavePoint}
    (h : Missing shellfd point) : Missing (sigchldSlave shellfd) point := by
  cases h with
  | bashHandler data hneg =>
      apply Missing.bashHandler
      rw [sigchldSlave, if_neg (not_lt.mpr (le_of_lt hneg))]
      exact hneg
  | bashWrite data fd hfd => exact Missing.bashWrite data fd hfd
  | sendData => exact Missing.sendData
  | reading => exact Missing.reading

/-!
## The session up to the quit

A quit that is read alone ends the slave, with one exception.  A SIGCHLD between
the test of `*shellfd` and its use makes the call return -1, and the slave reads
on.
-/

/-- Before the quit is written, while it is in the pipe, and in its call. -/
inductive Ending (quit : Bytes) (s : Session) : Prop where
  | unsent (before : List Bytes) (hcommands : s.commands = before ++ [quit])
      (hbefore : forall command, command ∈ before ->
        getCommand command ≠ Command.quit)
      (hrow : s.rowFreed = false)
  | sent (hcommands : s.commands = []) (hrow : s.rowFreed = true)
      (hpipe : strlen quit ≤ s.pipe.length)
  | read (hcommands : s.commands = []) (hread : s.QuitRead)
      (hquitting : Quitting s.shellfd s.point)

structure Missed (s : Session) : Prop where
  commands : s.commands = []
  read : s.QuitRead
  missing : Missing s.shellfd s.point

theorem strlen_quit {quit : Bytes} (h : getCommand quit = Command.quit) :
    0 < strlen quit := by
  rw [strlen, List.length_pos_iff]
  intro hnil
  have hempty : getCommand quit = getCommand [] :=
    getCommand_congr (by rw [hnil]; rfl)
  rw [h] at hempty
  cases hempty

theorem getCommand_received {quit : Bytes}
    (h : getCommand quit = Command.quit) (count : Nat) :
    getCommand (cstr quit ++ zeros count) = Command.quit := by
  rw [← h]
  apply getCommand_congr
  exact cstr_received_bytes (noNul_cstr quit) count

theorem Ending.master {quit : Bytes} (hquit : getCommand quit = Command.quit)
    {s s' : Session} (h : Ending quit s)
    (hstep : session s SessionEvent.master = some s') : Ending quit s' := by
  rcases master_cases hstep with ⟨data, rest, hdata, heq⟩
  rw [heq]
  cases h with
  | unsent before hcommands hbefore hrow =>
      rw [hcommands] at hdata
      cases before with
      | nil =>
          injection hdata with hdata hrest
          have hwritten : getCommand data ≠ Command.findall := by
            rw [← hdata, hquit]
            decide
          rw [serve_of_written rest hwritten, ← hdata, ← hrest]
          apply Ending.sent
          case hcommands => rfl
          case hrow => simp [hquit]
          case hpipe =>
            show strlen quit ≤ (s.pipe ++ cstr quit).length
            rw [List.length_append, strlen]
            lia
      | cons first before =>
          injection hdata with hdata hrest
          have hfirst : getCommand data ≠ Command.quit := by
            rw [← hdata]
            exact hbefore first List.mem_cons_self
          apply Ending.unsent before
          case hcommands =>
            unfold Session.serve
            split
            · exact hrest.symm
            · exact hrest.symm
          case hbefore =>
            intro command hmem
            exact hbefore command (List.mem_cons_of_mem first hmem)
          case hrow =>
            unfold Session.serve
            split
            · exact hrow
            · show (s.rowFreed || _) = false
              rw [hrow, Bool.false_or, decide_eq_false_iff_not]
              exact hfirst
  | sent hcommands hrow hpipe =>
      rw [hcommands] at hdata
      cases hdata
  | read hcommands hread hquitting =>
      rw [hcommands] at hdata
      cases hdata

theorem Ending.reads {quit : Bytes} (hquit : getCommand quit = Command.quit)
    {s s' : Session} (h : Ending quit s)
    (halone : QuitAlone quit s SessionEvent.read)
    (hstep : session s SessionEvent.read = some s') : Ending quit s' := by
  rcases read_cases hstep with ⟨_, hpipe, heq⟩
  rw [heq]
  cases h with
  | unsent before hcommands hbefore hrow =>
      exact Ending.unsent before hcommands hbefore hrow
  | sent hcommands hrow hlength =>
      rcases halone rfl hrow with ⟨hwhole, hshort⟩ | hlong
      · apply Ending.read
        case hcommands => exact hcommands
        case hread => exact ⟨hrow, List.drop_of_length_le hshort⟩
        case hquitting =>
          apply Quitting.handler
          show getCommand (s.pipe.take BUFSZ ++ zeros _) = Command.quit
          rw [List.take_of_length_le hshort, hwhole]
          exact getCommand_received hquit _
      · apply Ending.sent
        case hcommands => exact hcommands
        case hrow => exact hrow
        case hpipe =>
          show strlen quit ≤ (s.pipe.drop BUFSZ).length
          rw [List.length_drop]
          lia
  | read hcommands hread hquitting => exact absurd hread.right hpipe

theorem Ending.step {quit : Bytes} (hquit : getCommand quit = Command.quit)
    {s s' : Session} {e : SessionEvent} (h : Ending quit s)
    (halone : QuitAlone quit s e) (hstep : session s e = some s') :
    (NotBetween s e -> Ending quit s') ∧ (¬ NotBetween s e -> Missed s') := by
  have hother : e ≠ SessionEvent.sigchld -> NotBetween s e :=
    fun hne heq => absurd heq hne
  cases e with
  | master =>
      exact ⟨fun _ => h.master hquit hstep,
        fun hno => absurd (hother (by decide)) hno⟩
  | read =>
      exact ⟨fun _ => h.reads hquit halone hstep,
        fun hno => absurd (hother (by decide)) hno⟩
  | slave answer =>
      constructor
      · intro _
        rcases slave_cases hstep with ⟨shellfd, point, hmoves, heq⟩
        rw [heq]
        cases h with
        | unsent before hcommands hbefore hrow =>
            exact Ending.unsent before hcommands hbefore hrow
        | sent hcommands hrow hpipe => exact Ending.sent hcommands hrow hpipe
        | read hcommands hread hquitting =>
            exact Ending.read hcommands hread (hquitting.moves hmoves)
      · intro hno
        exact absurd (hother (by simp)) hno
  | sigchld =>
      injection hstep with hstep
      rw [← hstep]
      cases h with
      | unsent before hcommands hbefore hrow =>
          constructor
          · intro _
            exact Ending.unsent before hcommands hbefore hrow
          · intro hno
            apply absurd _ hno
            intro _ hread
            rw [hread.left] at hrow
            cases hrow
      | sent hcommands hrow hpipe =>
          constructor
          · intro _
            exact Ending.sent hcommands hrow hpipe
          · intro hno
            apply absurd _ hno
            intro _ hread
            rw [hread.right] at hpipe
            exact absurd (strlen_quit hquit) (not_lt.mpr hpipe)
      | read hcommands hread hquitting =>
          constructor
          · intro hbetween
            exact Ending.read hcommands hread
              (hquitting.sigchld (hbetween rfl hread))
          · intro hno
            constructor
            case commands => exact hcommands
            case read => exact hread
            case missing =>
              apply hquitting.missed
              intro hpoint
              exact hno (fun _ _ => hpoint)

theorem Missed.step {s s' : Session} {e : SessionEvent} (h : Missed s)
    (hstep : session s e = some s') : Missed s' := by
  cases e with
  | master =>
      rcases master_cases hstep with ⟨data, rest, hdata, _⟩
      rw [h.commands] at hdata
      cases hdata
  | read =>
      rcases read_cases hstep with ⟨_, hpipe, _⟩
      exact absurd h.read.right hpipe
  | slave answer =>
      rcases slave_cases hstep with ⟨shellfd, point, hmoves, heq⟩
      rw [heq]
      exact ⟨h.commands, h.read, h.missing.moves hmoves⟩
  | sigchld =>
      injection hstep with hstep
      rw [← hstep]
      exact ⟨h.commands, h.read, h.missing.sigchld⟩

theorem Ending.run {quit : Bytes} (hquit : getCommand quit = Command.quit)
    {events : List SessionEvent} {s t : Session} (h : Ending quit s)
    (halone : AllSteps session (QuitAlone quit) s events)
    (hrun : run session s events = some t) :
    (AllSteps session NotBetween s events ∧ Ending quit t) ∨
      (¬ AllSteps session NotBetween s events ∧ Missed t) :=
  run_splits (Ending quit) Missed
    (fun _ _ _ hs halone hbetween hstep =>
      (hs.step hquit halone hstep).left hbetween)
    (fun _ _ _ hs halone hbetween hstep =>
      (hs.step hquit halone hstep).right hbetween)
    (fun _ _ _ hs hstep => hs.step hstep) h halone hrun

/-- The master frees the row with the quit, and when the slave has handled the
quit it has ended, exactly when SIGCHLD did not arrive in the call for it
between the test of `*shellfd` and its use. -/
theorem session_ends_iff {before : List Bytes} {quit : Bytes}
    {events : List SessionEvent} {s : Session}
    (hquit : getCommand quit = Command.quit)
    (hbefore : forall command, command ∈ before ->
      getCommand command ≠ Command.quit)
    (halone : AllSteps session (QuitAlone quit)
      (Session.start (before ++ [quit])) events)
    (hrun : run session (Session.start (before ++ [quit])) events = some s) :
    (s.rowFreed = true <-> s.commands = []) ∧
      (s.QuitRead ->
        (s.point = SlavePoint.ended ∨ s.point = SlavePoint.reading) ->
        (s.point = SlavePoint.ended <->
          AllSteps session NotBetween (Session.start (before ++ [quit]))
            events)) := by
  have hstart : Ending quit (Session.start (before ++ [quit])) :=
    Ending.unsent before rfl hbefore rfl
  rcases hstart.run hquit halone hrun with ⟨hall, hend⟩ | ⟨hno, hmissed⟩
  · cases hend with
    | unsent rest hcommands hrest hrow =>
        constructor
        · rw [hrow, hcommands]
          simp
        · intro hread
          rw [hread.left] at hrow
          cases hrow
    | sent hcommands hrow hpipe =>
        constructor
        · rw [hrow, hcommands]
          simp
        · intro hread
          rw [hread.right] at hpipe
          exact absurd (strlen_quit hquit) (not_lt.mpr hpipe)
    | read hcommands hread hquitting =>
        constructor
        · rw [hread.left, hcommands]
          simp
        · intro _ hpoint
          constructor
          · intro _
            exact hall
          · intro _
            rcases hpoint with hended | hreading
            · exact hended
            · rw [hreading] at hquitting
              cases hquitting
  · constructor
    · rw [hmissed.read.left, hmissed.commands]
      simp
    · intro _ _
      constructor
      · intro hended
        have hmissing := hmissed.missing
        rw [hended] at hmissing
        cases hmissing
      · intro hall
        exact absurd hall hno

def shellThenQuit : List SessionEvent :=
  [SessionEvent.master, SessionEvent.read, SessionEvent.slave Answer.done,
    SessionEvent.slave (Answer.opened 5), SessionEvent.slave Answer.done,
    SessionEvent.slave Answer.done, SessionEvent.slave Answer.done,
    SessionEvent.master, SessionEvent.read, SessionEvent.slave Answer.done]

theorem session_ends_iff_shell :
    exists s,
      run session (Session.start ([SHELL] ++ [QUIT]))
          (shellThenQuit ++
            [SessionEvent.slave Answer.done, SessionEvent.sigchld,
              SessionEvent.slave Answer.done, SessionEvent.slave Answer.done]) =
        some s ∧ s.QuitRead ∧ s.point = SlavePoint.ended := by
  have hrun : exists s,
      run session (Session.start ([SHELL] ++ [QUIT]))
          (shellThenQuit ++
            [SessionEvent.slave Answer.done, SessionEvent.sigchld,
              SessionEvent.slave Answer.done, SessionEvent.slave Answer.done]) =
        some s ∧ (s.rowFreed = true ∧ s.pipe = []) ∧
          (s.point = SlavePoint.ended ∨ s.point = SlavePoint.reading) := by
    decide +kernel
  rcases hrun with ⟨s, hrun, hread, hpoint⟩
  refine ⟨s, hrun, hread, ?_⟩
  exact ((session_ends_iff (by decide +kernel) (by decide +kernel)
    (by decide +kernel) hrun).right hread hpoint).mpr (by decide +kernel)

/-- The shell ends between the test of `*shellfd` and the write: the row is
freed, the quit has been handled, and the slave waits for commands. -/
theorem slave_waits_after_quit :
    exists s,
      run session (Session.start ([SHELL] ++ [QUIT]))
          (shellThenQuit ++
            [SessionEvent.sigchld, SessionEvent.slave Answer.done,
              SessionEvent.slave Answer.done, SessionEvent.slave Answer.done]) =
        some s ∧ getCommand QUIT = Command.quit ∧
        AllSteps session (QuitAlone QUIT) (Session.start ([SHELL] ++ [QUIT]))
          (shellThenQuit ++
            [SessionEvent.sigchld, SessionEvent.slave Answer.done,
              SessionEvent.slave Answer.done, SessionEvent.slave Answer.done]) ∧
        s.rowFreed = true ∧ s.pipe = [] ∧ s.commands = [] ∧
        s.point = SlavePoint.reading := by
  decide +kernel

end Socket
end UnixPrograms
