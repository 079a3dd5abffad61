import UnixPrograms.Socket.UdpSlave

/-!
# Commands in the slave's pipe

The pipe carries bytes and no ends of commands.  A command is handled as it
was written exactly when it is alone in the pipe, so a run handles all of them
exactly when every write meets an empty pipe.
-/

namespace UnixPrograms
namespace Socket

open Foundation

def Session.Completed (s : Session) : Prop :=
  s.commands = [] ∧
    (s.point = SlavePoint.ended ∨
      s.point = SlavePoint.reading ∧ s.pipe = [])

/-- One call of `handler` for each command, in order, with its text and a
terminator in the buffer. -/
def Session.Handled (commands : List Bytes) (s : Session) : Prop :=
  s.calls.map cstr = commands ∧ forall data, data ∈ s.calls -> 0 ∈ data

/-- The master writes only when the slave has read all it wrote before. -/
def WritesAlone (s : Session) (e : SessionEvent) : Prop :=
  e = SessionEvent.master -> s.pipe = []

instance (s : Session) (e : SessionEvent) : Decidable (WritesAlone s e) :=
  inferInstanceAs (Decidable (e = SessionEvent.master -> s.pipe = []))

inductive InCall (data : Bytes) : SlavePoint -> Prop where
  | handler : InCall data (SlavePoint.handler data)
  | bashHandler : InCall data (SlavePoint.bashHandler data (getCommand data))
  | bashWrite (fd : Int) :
      InCall data (SlavePoint.bashWrite data (getCommand data) fd)
  | bashPoll : InCall data (SlavePoint.bashPoll data (getCommand data))
  | usualHandler : InCall data (SlavePoint.usualHandler data (getCommand data))
  | startShell : InCall data (SlavePoint.startShell data)
  | shellStarted (ret : Int) : InCall data (SlavePoint.shellStarted data ret)
  | sendData (flag : Int) (h : flag = 0 -> getCommand data = Command.quit) :
      InCall data (SlavePoint.sendData flag)
  | ended (h : getCommand data = Command.quit) : InCall data SlavePoint.ended

theorem InCall.returned {data : Bytes} {flag : Int} (h : flag ≠ 0) :
    InCall data (SlavePoint.sendData flag) :=
  InCall.sendData flag (fun hzero => absurd hzero h)

theorem InCall.step {data : Bytes} {shellfd shellfd' : Int}
    {point point' : SlavePoint} (h : InCall data point)
    (hmoves : Moves shellfd point shellfd' point') :
    InCall data point' ∨ point' = SlavePoint.reading := by
  cases hmoves with
  | shellRuns data' hpos =>
      cases h
      exact Or.inl InCall.bashHandler
  | shellOff data' hpos =>
      cases h
      exact Or.inl InCall.usualHandler
  | load data' command =>
      cases h
      exact Or.inl (InCall.bashWrite shellfd)
  | writeFails data' command fd hneg =>
      exact Or.inl (InCall.returned (by decide))
  | quitShell data' fd hneg =>
      generalize hcommand : Command.quit = command at h
      cases h
      exact Or.inl (InCall.sendData 0 (fun _ => hcommand.symm))
  | written data' command fd hneg hquit =>
      cases h
      exact Or.inl InCall.bashPoll
  | poll data' command =>
      cases h
      exact Or.inl InCall.bashPoll
  | pollEnds data' command => exact Or.inl (InCall.returned (by decide))
  | quit data' =>
      generalize hcommand : Command.quit = command at h
      cases h
      exact Or.inl (InCall.sendData 0 (fun _ => hcommand.symm))
  | usual data' command hquit => exact Or.inl (InCall.returned (by decide))
  | opened data' fd =>
      generalize hcommand : Command.shell = command at h
      cases h
      exact Or.inl InCall.startShell
  | openFails data' =>
      generalize hcommand : Command.shell = command at h
      cases h
      exact Or.inl (InCall.shellStarted (-1))
  | started data' ret =>
      cases h
      exact Or.inl (InCall.shellStarted ret)
  | shellReady data' ret shellfd' =>
      exact Or.inl (InCall.returned (by decide))
  | again flag hflag => exact Or.inr rfl
  | leave =>
      cases h with
      | sendData flag hquit => exact Or.inl (InCall.ended (hquit rfl))

theorem not_moves_reading {shellfd shellfd' : Int} {point' : SlavePoint} :
    ¬ Moves shellfd SlavePoint.reading shellfd' point' := by
  intro h
  cases h

/-!
## Runs that write alone

If the master writes only into an empty pipe, every command is in exactly one
place: still to be served, in the pipe, or in a call of `handler`.
-/

def waiting (pipe : Bytes) : List Bytes :=
  if pipe = [] then [] else [pipe]

structure InOrder (commands : List Bytes) (s : Session) : Prop where
  order : s.calls.map cstr ++ waiting s.pipe ++ s.commands = commands
  terminated : forall data, data ∈ s.calls -> 0 ∈ data
  short : s.pipe.length ≤ 245
  noNul : NoNul s.pipe
  place : s.point = SlavePoint.reading ∨
    exists before data, s.calls = before ++ [data] ∧ InCall data s.point

theorem InOrder.start (commands : List Bytes) :
    InOrder commands (Session.start commands) where
  order := rfl
  terminated := by
    intro data h
    cases h
  short := Nat.zero_le 245
  noNul := by
    intro b h
    cases h
  place := Or.inl rfl

theorem InOrder.serve {commands : List Bytes}
    (hcommands : forall command, command ∈ commands -> IsCommand command)
    {s : Session} (h : InOrder commands s) (hpipe : s.pipe = [])
    {data : Bytes} {rest : List Bytes} (hdata : s.commands = data :: rest) :
    InOrder commands (s.serve data rest) := by
  have horder := h.order
  rw [hpipe, hdata, waiting, if_pos rfl, List.append_nil] at horder
  have hcommand : IsCommand data := by
    apply hcommands
    rw [← horder]
    exact List.mem_append_right _ List.mem_cons_self
  have hstr : cstr data = data := cstr_of_noNul hcommand.noNul
  rw [serve_of_written rest hcommand.written, hpipe, List.nil_append, hstr]
  constructor
  case order =>
    show s.calls.map cstr ++ waiting data ++ rest = commands
    rw [waiting, if_neg hcommand.nonempty, List.append_assoc]
    exact horder
  case terminated => exact h.terminated
  case short => exact hcommand.short
  case noNul => exact hcommand.noNul
  case place => exact h.place

theorem received_of_short {pipe : Bytes} (hnoNul : NoNul pipe)
    (hshort : pipe.length ≤ 245) :
    cstr (pipe.take BUFSZ ++ zeros (BUFSZ - (pipe.take BUFSZ).length)) = pipe ∧
      0 ∈ pipe.take BUFSZ ++ zeros (BUFSZ - (pipe.take BUFSZ).length) := by
  have hwhole : pipe.take BUFSZ = pipe :=
    List.take_of_length_le (le_trans hshort (by decide))
  have hcount : BUFSZ - pipe.length = BUFSZ - pipe.length - 1 + 1 := by
    unfold BUFSZ
    lia
  rw [hwhole, hcount]
  constructor
  · exact cstr_append_zero hnoNul _
  · exact List.mem_append_right pipe List.mem_cons_self

theorem InOrder.read {commands : List Bytes} {s : Session}
    (h : InOrder commands s) (hpipe : s.pipe ≠ []) :
    InOrder commands s.read := by
  rcases received_of_short h.noNul h.short with ⟨htext, hzero⟩
  have hempty : s.pipe.drop BUFSZ = [] :=
    List.drop_of_length_le (le_trans h.short (by decide))
  constructor
  case order =>
    have horder := h.order
    rw [waiting, if_neg hpipe] at horder
    show (s.calls ++ [_]).map cstr ++ waiting (s.pipe.drop BUFSZ) ++ s.commands = _
    rw [hempty, waiting, if_pos rfl, List.append_nil, List.map_append,
      List.map_singleton, htext]
    exact horder
  case terminated =>
    intro data hdata
    rcases List.mem_append.mp hdata with hdata | hdata
    · exact h.terminated data hdata
    · rw [List.mem_singleton.mp hdata]
      exact hzero
  case short =>
    show (s.pipe.drop BUFSZ).length ≤ 245
    rw [hempty]
    exact Nat.zero_le 245
  case noNul =>
    intro b hb
    exact h.noNul b (List.mem_of_mem_drop hb)
  case place => exact Or.inr ⟨s.calls, _, rfl, InCall.handler⟩

theorem InOrder.step {commands : List Bytes}
    (hcommands : forall command, command ∈ commands -> IsCommand command)
    {s s' : Session} {e : SessionEvent} (h : InOrder commands s)
    (halone : WritesAlone s e) (hstep : session s e = some s') :
    InOrder commands s' := by
  cases e with
  | master =>
      rcases master_cases hstep with ⟨data, rest, hdata, heq⟩
      rw [heq]
      exact h.serve hcommands (halone rfl) hdata
  | read =>
      rcases read_cases hstep with ⟨_, hpipe, heq⟩
      rw [heq]
      exact h.read hpipe
  | slave answer =>
      rcases slave_cases hstep with ⟨shellfd, point, hmoves, heq⟩
      rw [heq]
      constructor
      case order => exact h.order
      case terminated => exact h.terminated
      case short => exact h.short
      case noNul => exact h.noNul
      case place =>
        rcases h.place with hreading | ⟨before, data, hcalls, hcall⟩
        · rw [hreading] at hmoves
          exact absurd hmoves not_moves_reading
        · rcases hcall.step hmoves with hcall' | hreading
          · exact Or.inr ⟨before, data, hcalls, hcall'⟩
          · exact Or.inl hreading
  | sigchld =>
      injection hstep with hstep
      rw [← hstep]
      exact ⟨h.order, h.terminated, h.short, h.noNul, h.place⟩

theorem InOrder.handled {commands : List Bytes} (hlast : QuitsLast commands)
    {s : Session} (h : InOrder commands s) (hdone : s.Completed) :
    s.Handled commands := by
  have horder := h.order
  have hnone : waiting s.pipe ++ s.commands = [] := by
    rcases hdone.right with hended | ⟨_, hpipe⟩
    · rcases h.place with hreading | ⟨before, data, hcalls, hcall⟩
      · rw [hreading] at hended
        cases hended
      · rw [hended] at hcall
        cases hcall with
        | ended hquit =>
            rw [hcalls, List.map_append, List.append_assoc,
              List.append_assoc] at horder
            apply hlast.nothing_behind horder.symm
            rw [getCommand_congr (cstr_cstr data)]
            exact hquit
    · rw [hpipe, hdone.left]
      rfl
  constructor
  · rw [List.append_assoc, hnone, List.append_nil] at horder
    exact horder
  · exact h.terminated

/-!
## Commands that pile up

From a write onto a command that is still in the pipe on, the next call cannot
get that command's text.
-/

/-- A call was wrong, or the next one will be. -/
structure PiledUp (commands : List Bytes) (s : Session) : Prop where
  noNul : NoNul s.pipe
  sound : forall command, command ∈ s.commands -> IsCommand command
  wrong :
    (exists (i : Nat) (data : Bytes),
        s.calls[i]? = some data ∧ commands[i]? ≠ some (cstr data)) ∨
      exists command, commands[s.calls.length]? = some command ∧
        command.length < BUFSZ ∧ command.length < s.pipe.length

theorem cstr_received_bytes {received : Bytes} (h : NoNul received) (count : Nat) :
    cstr (received ++ zeros count) = received := by
  cases count with
  | zero =>
      rw [zeros, List.replicate_zero, List.append_nil]
      exact cstr_of_noNul h
  | succ count => exact cstr_append_zero h _

theorem PiledUp.serve {commands : List Bytes} {s : Session}
    (h : PiledUp commands s) {data : Bytes} {rest : List Bytes}
    (hdata : s.commands = data :: rest) :
    PiledUp commands (s.serve data rest) := by
  have hcommand : IsCommand data :=
    h.sound data (by rw [hdata]; exact List.mem_cons_self)
  rw [serve_of_written rest hcommand.written, cstr_of_noNul hcommand.noNul]
  constructor
  case noNul => exact h.noNul.append hcommand.noNul
  case sound =>
    intro command hmem
    exact h.sound command (by rw [hdata]; exact List.mem_cons_of_mem data hmem)
  case wrong =>
    rcases h.wrong with hwrong | ⟨command, hget, hshort, hlt⟩
    · exact Or.inl hwrong
    · refine Or.inr ⟨command, hget, hshort, ?_⟩
      show command.length < (s.pipe ++ data).length
      rw [List.length_append]
      lia

theorem PiledUp.read {commands : List Bytes} {s : Session}
    (h : PiledUp commands s) : PiledUp commands s.read := by
  constructor
  case noNul =>
    intro b hb
    exact h.noNul b (List.mem_of_mem_drop hb)
  case sound => exact h.sound
  case wrong =>
    rcases h.wrong with ⟨i, data, hcall, hne⟩ | ⟨command, hget, hshort, hlt⟩
    · have hi : i < s.calls.length :=
        (List.getElem?_eq_some_iff.mp hcall).choose
      refine Or.inl ⟨i, data, ?_, hne⟩
      show (s.calls ++ [_])[i]? = some data
      rw [List.getElem?_append_left hi]
      exact hcall
    · have hnoNul : NoNul (s.pipe.take BUFSZ) :=
        fun b hb => h.noNul b (List.mem_of_mem_take hb)
      refine Or.inl ⟨s.calls.length, _, List.getElem?_concat_length, ?_⟩
      rw [hget, cstr_received_bytes hnoNul]
      intro heq
      injection heq with heq
      have hlength := congrArg List.length heq
      rw [List.length_take] at hlength
      lia

theorem PiledUp.step {commands : List Bytes} {s s' : Session}
    {e : SessionEvent} (h : PiledUp commands s) (hstep : session s e = some s') :
    PiledUp commands s' := by
  cases e with
  | master =>
      rcases master_cases hstep with ⟨data, rest, hdata, heq⟩
      rw [heq]
      exact h.serve hdata
  | read =>
      rcases read_cases hstep with ⟨_, _, heq⟩
      rw [heq]
      exact h.read
  | slave answer =>
      rcases slave_cases hstep with ⟨shellfd, point, _, heq⟩
      rw [heq]
      exact ⟨h.noNul, h.sound, h.wrong⟩
  | sigchld =>
      injection hstep with hstep
      rw [← hstep]
      exact ⟨h.noNul, h.sound, h.wrong⟩

theorem PiledUp.not_handled {commands : List Bytes} {s : Session}
    (h : PiledUp commands s) : ¬ s.Handled commands := by
  intro hhandled
  rcases h.wrong with ⟨i, data, hcall, hne⟩ | ⟨command, hget, _, _⟩
  · apply hne
    rw [← hhandled.left, List.getElem?_map, hcall]
    rfl
  · rw [← hhandled.left, List.getElem?_map, List.getElem?_eq_none (le_refl _)] at hget
    cases hget

theorem InOrder.piledUp {commands : List Bytes}
    (hcommands : forall command, command ∈ commands -> IsCommand command)
    {s s' : Session} {e : SessionEvent} (h : InOrder commands s)
    (halone : ¬ WritesAlone s e) (hstep : session s e = some s') :
    PiledUp commands s' := by
  have horder := h.order
  have hmaster : e = SessionEvent.master ∧ s.pipe ≠ [] := by
    constructor
    · by_contra hne
      exact halone (fun heq => absurd heq hne)
    · intro hpipe
      exact halone (fun _ => hpipe)
  rw [waiting, if_neg hmaster.right] at horder
  rw [hmaster.left] at hstep
  rcases master_cases hstep with ⟨data, rest, hdata, heq⟩
  have hmem : forall command, command ∈ s.commands -> IsCommand command := by
    intro command hcommand
    apply hcommands
    rw [← horder]
    exact List.mem_append_right _ hcommand
  have hcommand : IsCommand data :=
    hmem data (by rw [hdata]; exact List.mem_cons_self)
  have hpos : 0 < data.length := List.length_pos_iff.mpr hcommand.nonempty
  rw [heq, serve_of_written rest hcommand.written, cstr_of_noNul hcommand.noNul]
  constructor
  case noNul => exact h.noNul.append hcommand.noNul
  case sound =>
    intro command hcommand
    exact hmem command (by rw [hdata]; exact List.mem_cons_of_mem data hcommand)
  case wrong =>
    refine Or.inr ⟨s.pipe, ?_, Nat.lt_of_le_of_lt h.short (by decide), ?_⟩
    · rw [← horder, List.append_assoc,
        List.getElem?_append_right (by rw [List.length_map]), List.length_map,
        Nat.sub_self]
      rfl
    · show s.pipe.length < (s.pipe ++ data).length
      rw [List.length_append]
      lia

theorem InOrder.run {commands : List Bytes}
    (hcommands : forall command, command ∈ commands -> IsCommand command)
    {events : List SessionEvent} {s t : Session} (h : InOrder commands s)
    (hrun : run session s events = some t) :
    (AllSteps session WritesAlone s events ∧ InOrder commands t) ∨
      (¬ AllSteps session WritesAlone s events ∧ PiledUp commands t) :=
  run_splits (InOrder commands) (PiledUp commands)
    (fun _ _ _ hs _ halone hstep => hs.step hcommands halone hstep)
    (fun _ _ _ hs _ halone hstep => hs.piledUp hcommands halone hstep)
    (fun _ _ _ hs hstep => hs.step hstep) h
    (allSteps_of_forall (fun _ _ => trivial) events s) hrun

/-- When all commands have been written and read, each of them has been
handled, once and with its own text, exactly when every write met an empty
pipe. -/
theorem commands_handled_iff {commands : List Bytes}
    {events : List SessionEvent} {s : Session}
    (hcommands : forall command, command ∈ commands -> IsCommand command)
    (hlast : QuitsLast commands)
    (hrun : run session (Session.start commands) events = some s)
    (hdone : s.Completed) :
    s.Handled commands <->
      AllSteps session WritesAlone (Session.start commands) events := by
  rcases (InOrder.start commands).run hcommands hrun with
    ⟨hall, horder⟩ | ⟨hno, hpiled⟩
  · constructor
    · intro _
      exact hall
    · intro _
      exact horder.handled hlast hdone
  · constructor
    · intro hhandled
      exact absurd hhandled hpiled.not_handled
    · intro hall
      exact absurd hall hno

def oneByOne : List SessionEvent :=
  [SessionEvent.master, SessionEvent.read, SessionEvent.slave Answer.done,
    SessionEvent.slave Answer.done, SessionEvent.slave Answer.done,
    SessionEvent.master, SessionEvent.read, SessionEvent.slave Answer.done,
    SessionEvent.slave Answer.done, SessionEvent.slave Answer.done]

theorem commands_handled_iff_one_by_one :
    exists s, run session (Session.start [LS, QUIT]) oneByOne = some s ∧
      s.Handled [LS, QUIT] := by
  have hrun : exists s,
      run session (Session.start [LS, QUIT]) oneByOne = some s ∧
        s.commands = [] ∧ s.point = SlavePoint.ended := by
    decide +kernel
  rcases hrun with ⟨s, hrun, hcommands, hended⟩
  refine ⟨s, hrun, ?_⟩
  exact (commands_handled_iff (by decide +kernel) (by decide +kernel) hrun
    ⟨hcommands, Or.inl hended⟩).mpr (by decide +kernel)

/-- Two commands that are written before the slave reads are one call. -/
theorem commands_merged :
    exists s,
      run session (Session.start [LS, CD])
          [SessionEvent.master, SessionEvent.master, SessionEvent.read,
            SessionEvent.slave Answer.done, SessionEvent.slave Answer.done,
            SessionEvent.slave Answer.done] = some s ∧
        (forall command, command ∈ [LS, CD] -> IsCommand command) ∧
        QuitsLast [LS, CD] ∧ s.Completed ∧
        s.calls.map cstr = [LS ++ CD] ∧ ¬ s.Handled [LS, CD] := by
  have hrun : exists s,
      run session (Session.start [LS, CD])
          [SessionEvent.master, SessionEvent.master, SessionEvent.read,
            SessionEvent.slave Answer.done, SessionEvent.slave Answer.done,
            SessionEvent.slave Answer.done] = some s ∧
        s.commands = [] ∧ s.point = SlavePoint.reading ∧ s.pipe = [] ∧
        s.calls.map cstr = [LS ++ CD] := by
    decide +kernel
  rcases hrun with ⟨s, hrun, hcommands, hreading, hpipe, hcalls⟩
  refine ⟨s, hrun, by decide +kernel, by decide +kernel,
    ⟨hcommands, Or.inr ⟨hreading, hpipe⟩⟩, hcalls, ?_⟩
  intro h
  have hwrong := h.left
  rw [hcalls] at hwrong
  exact absurd hwrong (by decide)

end Socket
end UnixPrograms
