import UnixPrograms.Socket.Tcp
import UnixPrograms.Socket.UdpSlave

/-!
# The end of a TCP slave

The loop of `slave` in `TCP.c` over the bytes of one connection.  A `recv` that
fails and one at the end of the stream lead back to the top of the loop, like
an empty message.  So only a quit makes the slave leave the loop, and only an
answer to a connection that the client has closed kills it, since the slave
leaves SIGPIPE as it is.
-/

namespace UnixPrograms
namespace Socket
namespace Tcp

open Foundation

/-- What one iteration meets up to the return of `handler`, should it be
called; `recv` is `none` where it gives -1. -/
structure Turn where
  recv : Option Nat
  /-- SIGCHLD arrives before the test of `*shellfd`. -/
  childDied : Bool
  /-- The `open` of `/dev/ptmx`. -/
  terminal : Option Nat
  /-- The rest of `start_shell`. -/
  shellStarts : Bool
  /-- The `write` to the shell. -/
  writable : Bool

def Turn.shellfd (t : Turn) (shellfd : Int) : Int :=
  if t.childDied = true then sigchldSlave shellfd else shellfd

/-- `handler`: its result and the new `*shellfd`. -/
def handler (shellfd : Int) (command : Command) (t : Turn) : Int × Int :=
  let shellfd := t.shellfd shellfd
  if 0 < shellfd then
    -- `bash_handler`
    (if t.writable = false then -1 else if command = Command.quit then 0 else 1,
      shellfd)
  else
    match command with
    | Command.shell =>
        (1,
          match t.terminal with
          | none => -1
          | some fd => if 0 < fd ∧ t.shellStarts = true then (fd : Int) else -1)
    | Command.quit => (0, shellfd)
    | _ => (1, shellfd)

inductive Sent where
  | accepted
  /-- It returns -1. -/
  | failed
  /-- The connection is closed, and SIGPIPE is sent to the slave. -/
  | refused
deriving DecidableEq

structure Iteration extends Turn where
  /-- `handler` returns.  It need not when `buf_pipe` is too small. -/
  returns : Bool
  /-- The `send` of the answer to `findall`. -/
  answer : Sent
  /-- The `send` behind each `read` of `send_data`; `none` is a failing
  `read`. -/
  chunks : List (Option Sent)

/-- The loop of `send_data`; `false` when SIGPIPE ends it. -/
def sendData : List (Option Sent) -> Bool
  | [] => true
  | none :: chunks => sendData chunks
  | some Sent.refused :: _ => false
  | some _ :: chunks => sendData chunks

inductive Fate where
  | alive
  /-- In `handler`, for ever. -/
  | blocked
  | killed
deriving DecidableEq

structure SlaveState where
  inFlight : Bytes
  shellfd : Int
  flag : Int
  fate : Fate

def SlaveState.start (stream : Bytes) : SlaveState where
  inFlight := stream
  shellfd := -1
  flag := 1
  fate := Fate.alive

def SlaveState.InLoop (s : SlaveState) : Prop :=
  s.fate = Fate.alive ∧ s.flag ≠ 0

/-- The slave has left the loop, or it has been killed. -/
def SlaveState.Ended (s : SlaveState) : Prop :=
  s.fate = Fate.alive ∧ s.flag = 0 ∨ s.fate = Fate.killed

instance (s : SlaveState) : Decidable s.InLoop :=
  inferInstanceAs (Decidable (_ ∧ _))

instance (s : SlaveState) : Decidable s.Ended :=
  inferInstanceAs (Decidable (_ ∨ _))

def slaveIteration (s : SlaveState) (t : Iteration) : SlaveState :=
  let ((ret, buffer), inFlight) := receiveBuf s.inFlight t.recv
  let s := { s with inFlight := inFlight }
  if ret ≤ 0 then s
  else
    let data := (separateBuffer buffer (zeros BUFSZ)).2
    match getCommand data with
    | Command.findall =>
        if t.answer = Sent.refused then { s with fate := Fate.killed } else s
    | command =>
        if t.returns = false then { s with fate := Fate.blocked }
        else
          let (flag, shellfd) := handler s.shellfd command t.toTurn
          let s := { s with shellfd := shellfd, flag := flag }
          if sendData t.chunks = false then { s with fate := Fate.killed } else s

def slaveLoop (stream : Bytes) (turns : Nat -> Iteration) : Nat -> SlaveState
  | 0 => SlaveState.start stream
  | n + 1 =>
      let s := slaveLoop stream turns n
      if s.InLoop then slaveIteration s (turns n) else s

/-- From iteration `n` on `recv` reports the end of the stream or an error. -/
def EndsAt (turns : Nat -> Iteration) (n : Nat) : Prop :=
  forall i, n ≤ i -> (turns i).recv = none ∨ (turns i).recv = some 0

def request (s : SlaveState) (t : Iteration) : Command :=
  getCommand (separateBuffer (receiveBuf s.inFlight t.recv).1.2 (zeros BUFSZ)).2

/-- The piece that is received asks to quit, a shell that runs can be written
to, and `handler` returns. -/
structure QuitReceived (s : SlaveState) (t : Iteration) : Prop where
  received : 0 < (receiveBuf s.inFlight t.recv).1.1
  quits : request s t = Command.quit
  written : 0 < t.shellfd s.shellfd -> t.writable = true
  returned : t.returns = true

/-- The piece that is received is answered, after `handler` has returned, and
the client has closed the connection. -/
structure AnswerRefused (s : SlaveState) (t : Iteration) : Prop where
  received : 0 < (receiveBuf s.inFlight t.recv).1.1
  found : request s t = Command.findall -> t.answer = Sent.refused
  returned : request s t ≠ Command.findall -> t.returns = true
  refused : request s t ≠ Command.findall -> some Sent.refused ∈ t.chunks

section Ending

variable {s : SlaveState} {t : Iteration} {stream : Bytes}
  {turns : Nat -> Iteration}

theorem handler_eq_zero_iff (shellfd : Int) (command : Command) (t : Turn) :
    (handler shellfd command t).1 = 0 <->
      command = Command.quit ∧
        (0 < t.shellfd shellfd -> t.writable = true) := by
  by_cases hruns : 0 < t.shellfd shellfd
  · have hresult : (handler shellfd command t).1 =
        if t.writable = false then -1
        else if command = Command.quit then 0 else 1 := by
      simp only [handler, if_pos hruns]
    rw [hresult]
    cases hwritable : t.writable with
    | false => simp [hruns]
    | true =>
        by_cases hquit : command = Command.quit
        · simp [hquit]
        · simp [hquit]
  · have hresult : (handler shellfd command t).1 =
        if command = Command.quit then 0 else 1 := by
      simp only [handler, if_neg hruns]
      cases command with
      | quit => rfl
      | _ => rfl
    rw [hresult]
    by_cases hquit : command = Command.quit
    · simp [hquit, hruns]
    · simp [hquit]

theorem receiveBuf_nothing {inFlight : Bytes} {size : Option Nat}
    (h : size = none ∨ size = some 0) :
    (receiveBuf inFlight size).1.1 ≤ 0 ∧
      (receiveBuf inFlight size).2 = inFlight := by
  rcases h with hnone | hzero
  · rw [hnone]
    exact ⟨Int.neg_nonpos_of_nonneg Int.one_nonneg, rfl⟩
  · rw [hzero]
    refine ⟨?_, rfl⟩
    change ((strlen (decode (zeros BUFSZ)) : Nat) : Int) ≤ 0
    decide

theorem slaveIteration_nothing (h : t.recv = none ∨ t.recv = some 0) :
    slaveIteration s t = s := by
  rcases @receiveBuf_nothing s.inFlight _ h with ⟨hret, hsame⟩
  simp only [slaveIteration, if_pos hret, hsame]

theorem sendData_eq_false_iff {chunks : List (Option Sent)} :
    sendData chunks = false <-> some Sent.refused ∈ chunks := by
  induction chunks with
  | nil => simp [sendData]
  | cons chunk chunks ih =>
      cases chunk with
      | none => simp [sendData, ih]
      | some sent =>
          cases sent with
          | accepted => simp [sendData, ih]
          | failed => simp [sendData, ih]
          | refused => simp [sendData]

theorem SlaveState.InLoop.not_ended (h : s.InLoop) : ¬ s.Ended := by
  rintro (⟨_, hflag⟩ | hkilled)
  · exact h.right hflag
  · rw [h.left] at hkilled
    cases hkilled

theorem QuitReceived.not_findall (h : QuitReceived s t) :
    request s t ≠ Command.findall := by
  rw [h.quits]
  exact Command.noConfusion

theorem ended_findall_iff (hloop : s.InLoop)
    (hreceived : 0 < (receiveBuf s.inFlight t.recv).1.1)
    (hfindall : request s t = Command.findall) :
    (slaveIteration s t).Ended <-> t.answer = Sent.refused := by
  have hstep : slaveIteration s t =
      if t.answer = Sent.refused then
        { s with
          inFlight := (receiveBuf s.inFlight t.recv).2
          fate := Fate.killed }
      else
        { s with inFlight := (receiveBuf s.inFlight t.recv).2 } := by
    simp only [request] at hfindall
    simp only [slaveIteration, if_neg (not_le.mpr hreceived), hfindall]
  rw [hstep]
  split
  · rename_i hrefused
    exact iff_of_true (Or.inr rfl) hrefused
  · rename_i haccepted
    have hsame : ({ s with inFlight := (receiveBuf s.inFlight t.recv).2 } :
        SlaveState).InLoop := hloop
    exact iff_of_false hsame.not_ended haccepted

theorem ended_command_iff (hloop : s.InLoop)
    (hreceived : 0 < (receiveBuf s.inFlight t.recv).1.1)
    (hcommand : request s t ≠ Command.findall) :
    (slaveIteration s t).Ended <->
      t.returns = true ∧
        (some Sent.refused ∈ t.chunks ∨
          (handler s.shellfd (request s t) t.toTurn).1 = 0) := by
  have hstep : slaveIteration s t =
      if t.returns = false then
        { s with
          inFlight := (receiveBuf s.inFlight t.recv).2
          fate := Fate.blocked }
      else
        { s with
          inFlight := (receiveBuf s.inFlight t.recv).2
          shellfd := (handler s.shellfd (request s t) t.toTurn).2
          flag := (handler s.shellfd (request s t) t.toTurn).1
          fate := if sendData t.chunks = false then Fate.killed else s.fate } := by
    simp only [slaveIteration, request, if_neg (not_le.mpr hreceived)]
    split
    · rename_i hfindall
      exact absurd hfindall hcommand
    · split
      · rfl
      · split
        · rfl
        · rfl
  rw [hstep]
  cases hreturns : t.returns with
  | false => simp [SlaveState.Ended]
  | true =>
      rw [if_neg (Bool.noConfusion)]
      cases hsent : sendData t.chunks with
      | false =>
          have hrefused := sendData_eq_false_iff.mp hsent
          simp [SlaveState.Ended, hrefused]
      | true =>
          have hrefused : some Sent.refused ∉ t.chunks := by
            rw [← sendData_eq_false_iff, hsent]
            exact Bool.noConfusion
          simp [SlaveState.Ended, hrefused, hloop.left]

theorem slaveIteration_ended_iff (hloop : s.InLoop) :
    (slaveIteration s t).Ended <-> QuitReceived s t ∨ AnswerRefused s t := by
  cases le_or_gt (receiveBuf s.inFlight t.recv).1.1 0 with
  | inl hret =>
      have hsame : slaveIteration s t =
          { s with inFlight := (receiveBuf s.inFlight t.recv).2 } := by
        simp only [slaveIteration, if_pos hret]
      have hinLoop : (slaveIteration s t).InLoop := by
        rw [hsame]
        exact hloop
      apply iff_of_false hinLoop.not_ended
      rintro (hquit | hrefused)
      · exact absurd hquit.received (not_lt.mpr hret)
      · exact absurd hrefused.received (not_lt.mpr hret)
  | inr hreceived =>
      by_cases hfindall : request s t = Command.findall
      · rw [ended_findall_iff hloop hreceived hfindall]
        constructor
        · intro hrefused
          exact Or.inr ⟨hreceived, fun _ => hrefused, absurd hfindall,
            absurd hfindall⟩
        · rintro (hquit | hrefused)
          · exact absurd hfindall hquit.not_findall
          · exact hrefused.found hfindall
      · rw [ended_command_iff hloop hreceived hfindall, handler_eq_zero_iff]
        constructor
        · rintro ⟨hreturns, hrefused | ⟨hquit, hwritten⟩⟩
          · exact Or.inr ⟨hreceived, fun h => absurd h hfindall,
              fun _ => hreturns, fun _ => hrefused⟩
          · exact Or.inl ⟨hreceived, hquit, hwritten, hreturns⟩
        · rintro (hquit | hrefused)
          · exact ⟨hquit.returned, Or.inr ⟨hquit.quits, hquit.written⟩⟩
          · exact ⟨hrefused.returned hfindall,
              Or.inl (hrefused.refused hfindall)⟩

theorem slave_spins {n : Nat} (h : EndsAt turns n) :
    forall i, n ≤ i -> slaveLoop stream turns i = slaveLoop stream turns n := by
  intro i hi
  induction i, hi using Nat.le_induction with
  | base => rfl
  | succ i hi ih =>
      rw [slaveLoop, slaveIteration_nothing (h i hi), ite_self, ih]

/-- The slave ends exactly when, before the end of the stream, it receives a
piece that asks to quit, or one whose answer the closed connection refuses. -/
theorem slave_ends_iff {n : Nat} (h : EndsAt turns n) :
    (exists i, (slaveLoop stream turns i).Ended) <->
      exists i, i < n ∧ (slaveLoop stream turns i).InLoop ∧
        (QuitReceived (slaveLoop stream turns i) (turns i) ∨
          AnswerRefused (slaveLoop stream turns i) (turns i)) := by
  constructor
  · rintro ⟨i, hi⟩
    induction i with
    | zero =>
        have hstart : (SlaveState.start stream).InLoop := ⟨rfl, Int.one_ne_zero⟩
        exact absurd hi hstart.not_ended
    | succ i ih =>
        by_cases hloop : (slaveLoop stream turns i).InLoop
        · rw [slaveLoop, if_pos hloop] at hi
          have hends := (slaveIteration_ended_iff hloop).mp hi
          refine ⟨i, ?_, hloop, hends⟩
          by_contra hlate
          rw [slaveIteration_nothing (h i (Nat.le_of_not_lt hlate))] at hi
          exact hloop.not_ended hi
        · rw [slaveLoop, if_neg hloop] at hi
          exact ih hi
  · rintro ⟨i, _, hloop, hends⟩
    refine ⟨i + 1, ?_⟩
    rw [slaveLoop, if_pos hloop]
    exact (slaveIteration_ended_iff hloop).mpr hends

end Ending

def plainTurn (recv : Option Nat) : Iteration where
  recv := recv
  childDied := false
  terminal := none
  shellStarts := false
  writable := true
  returns := true
  answer := Sent.accepted
  chunks := []

theorem slave_ends_iff_quit :
    exists i, (slaveLoop (masked (List.replicate IDSZ 48 ++ QUIT))
      (fun i => if i < 1 then plainTurn (some 14) else plainTurn (some 0))
      i).Ended := by
  have hends : EndsAt (fun i =>
      if i < 1 then plainTurn (some 14) else plainTurn (some 0)) 1 := by
    intro i hi
    right
    simp only [if_neg (Nat.not_lt.mpr hi)]
    rfl
  refine (slave_ends_iff hends).mpr
    ⟨0, by decide, by decide, Or.inl ⟨?_, ?_, fun _ => rfl, rfl⟩⟩
  · decide +kernel
  · decide +kernel

theorem slave_never_ends :
    EndsAt (fun _ => plainTurn (some 0)) 0 ∧
      forall i, (slaveLoop [] (fun _ => plainTurn (some 0)) i).InLoop := by
  have hends : EndsAt (fun _ => plainTurn (some 0)) 0 :=
    fun _ _ => Or.inr rfl
  refine ⟨hends, fun i => ?_⟩
  rw [slave_spins hends i (Nat.zero_le i)]
  exact ⟨rfl, Int.one_ne_zero⟩

end Tcp
end Socket
end UnixPrograms
