import UnixPrograms.Foundation.Strtok
import UnixPrograms.Socket.Arguments

/-!
# The main loop of the client

The loop of `main` in `client.c` over the whole standard input.  What the calls
of `receive_buf` bring is given for each iteration; `send_buf` encodes the
buffer in place.  At the end of the input `get_str` returns `error`, and the
loop goes on.
-/

namespace UnixPrograms
namespace Socket

open Foundation

/-- What one call of `receive_buf` brings: its result, and the content of the
buffer. -/
structure Received where
  size : Int
  buffer : Bytes

/-- `receive_data`: what has been written, and the last content of the buffer.
It does not return before an empty message. -/
def receiveData : Bytes -> List Received -> Option (Bytes × Bytes)
  | _, [] => none
  | stdout, received :: rest =>
      let stdout :=
        if 0 < received.size then
          stdout ++ received.buffer.take received.size.toNat
        else stdout
      if received.size = 0 then some (stdout, received.buffer)
      else receiveData stdout rest

def receivedDatagram (datagram : Option Bytes) : Received where
  size := receiveBufSize datagram
  buffer := receiveBuf datagram

theorem receiveData_datagram (stdout : Bytes) (datagram : Option Bytes)
    (rest : List Received) :
    receiveData stdout (receivedDatagram datagram :: rest) =
      if (receiveDataIteration stdout datagram).1 = 0 then
        some ((receiveDataIteration stdout datagram).2, receiveBuf datagram)
      else receiveData (receiveDataIteration stdout datagram).2 rest := rfl

structure Reply where
  /-- `setsockopt` switches the broadcast mode on. -/
  broadcasts : Bool
  received : List Received
  /-- The address that `inet_ntoa` prints. -/
  ip : Bytes

structure ClientState where
  input : Bytes
  buffer : Bytes
  sent : List Bytes
  stdout : Bytes
  flag : Bool

def ClientState.start (buffer input : Bytes) : ClientState where
  input := input
  buffer := buffer
  sent := []
  stdout := []
  flag := true

def findallHandler (s : ClientState) (reply : Reply) : Option ClientState :=
  if reply.broadcasts = false then some s
  else
    match reply.received with
    | [] => none
    | received :: _ =>
        some
          { s with
            sent := s.sent ++ [encode s.buffer]
            buffer := received.buffer
            stdout :=
              s.stdout ++ text "find server, buf: (".toList ++
                cstr received.buffer ++ text "), ip: ".toList ++ reply.ip ++
                text "\n".toList }

/-- The `default` case of the `switch`. -/
def requestHandler (s : ClientState) (command : Command) (reply : Reply) :
    Option ClientState :=
  (receiveData (s.stdout ++ text "response on request:\n".toList)
      reply.received).map
    (fun written =>
      { s with
        sent := s.sent ++ [encode s.buffer]
        stdout := written.1
        buffer := written.2
        flag := if command = Command.quit then false else s.flag })

/-- The body of the loop, unless it waits for ever. -/
def clientIteration (clientId : Bytes) (s : ClientState) (reply : Reply) :
    Option ClientState :=
  let s :=
    { s with stdout := s.stdout ++ text "type in your request: ".toList }
  match getStr clientId s.buffer s.input with
  | none => some s
  | some typed =>
      let s :=
        { s with
          input := typed.input
          buffer := typed.request }
      match typed.command with
      | Command.findall => findallHandler s reply
      | command => requestHandler s command reply

def mainLoop (clientId : Bytes) (replies : Nat -> Reply) (s : ClientState) :
    Nat -> Option ClientState
  | 0 => some s
  | n + 1 =>
      match mainLoop clientId replies s n with
      | none => none
      | some s =>
          if s.flag = true then clientIteration clientId s (replies n) else some s

/-- The server answers `findall` with a message, and any other request with
messages up to the empty one. -/
def Answered (reply : Reply) : Command -> Prop
  | Command.findall => reply.received ≠ []
  | _ => exists received, received ∈ reply.received ∧ received.size = 0

def AnsweredAll (clientId : Bytes) (replies : Nat -> Reply) (s : ClientState) :
    Prop :=
  forall n s' typed, mainLoop clientId replies s n = some s' ->
    getStr clientId s'.buffer s'.input = some typed ->
    Answered (replies n) typed.command

def piecesWithin : Nat -> Bytes -> List Bytes
  | 0, _ => []
  | fuel + 1, input =>
      match fgets (BUFSZ - IDSZ) input with
      | none => []
      | some (read, input) => read :: piecesWithin fuel input

def pieces (input : Bytes) : List Bytes :=
  piecesWithin input.length input

def TypesQuit (input : Bytes) : Prop :=
  exists piece, piece ∈ pieces input ∧ getCommand piece = Command.quit

/-!
## The pieces of the input
-/

theorem fgets_shorter {input read rest : Bytes}
    (h : fgets (BUFSZ - IDSZ) input = some (read, rest)) :
    rest.length < input.length :=
  (fgets_split h).right.right (by decide)

theorem cutsOff_fgets : CutsOff (fgets (BUFSZ - IDSZ)) piecesWithin where
  stop := fun _ => rfl
  turn := by
    intro fuel input
    rw [piecesWithin]
    cases fgets (BUFSZ - IDSZ) input with
    | none => rfl
    | some found => rfl
  shorter := fun _ _ _ hread => fgets_shorter hread

theorem pieces_cons {input read rest : Bytes}
    (h : fgets (BUFSZ - IDSZ) input = some (read, rest)) :
    pieces input = read :: pieces rest := by
  rw [pieces, cutsOff_fgets.all_eq, h]
  rfl

theorem not_typesQuit_nil : ¬ TypesQuit [] := by
  rintro ⟨piece, hmem, _⟩
  cases hmem

theorem typesQuit_cons {input read rest : Bytes}
    (h : fgets (BUFSZ - IDSZ) input = some (read, rest)) :
    TypesQuit input <-> getCommand read = Command.quit ∨ TypesQuit rest := by
  unfold TypesQuit
  rw [pieces_cons h]
  constructor
  · rintro ⟨piece, hmem, hquit⟩
    rcases List.mem_cons.mp hmem with heq | hmem
    · rw [heq] at hquit
      exact Or.inl hquit
    · exact Or.inr ⟨piece, hmem, hquit⟩
  · rintro (hquit | ⟨piece, hmem, hquit⟩)
    · exact ⟨read, List.mem_cons_self, hquit⟩
    · exact ⟨piece, List.mem_cons_of_mem read hmem, hquit⟩

theorem getStr_cases (clientId buffer input : Bytes) :
    getStr clientId buffer input = none ∧ input = [] ∨
      exists typed, getStr clientId buffer input = some typed ∧
        typed.input.length < input.length ∧
        (TypesQuit input <->
          typed.command = Command.quit ∨ TypesQuit typed.input) := by
  unfold getStr
  cases hread : fgets (BUFSZ - IDSZ) input with
  | none =>
      left
      refine ⟨rfl, ?_⟩
      unfold fgets at hread
      split at hread
      case isTrue hnil => exact hnil
      case isFalse _ => cases hread
  | some found =>
      rcases found with ⟨read, rest⟩
      right
      refine ⟨_, rfl, fgets_shorter hread, ?_⟩
      rw [typesQuit_cons hread, getCommand_congr (cstr_append_zeros read _)]

/-!
## One iteration
-/

theorem receiveData_isSome {stdout : Bytes} {received : List Received}
    (h : exists r, r ∈ received ∧ r.size = 0) :
    exists written, receiveData stdout received = some written := by
  induction received generalizing stdout with
  | nil =>
      rcases h with ⟨r, hmem, _⟩
      cases hmem
  | cons first rest ih =>
      rw [receiveData]
      split
      case isTrue _ => exact ⟨_, rfl⟩
      case isFalse hsize =>
        apply ih
        rcases h with ⟨r, hmem, hzero⟩
        rcases List.mem_cons.mp hmem with heq | hmem
        · rw [heq] at hzero
          exact absurd hzero hsize
        · exact ⟨r, hmem, hzero⟩

theorem clientIteration_typed {clientId : Bytes} {s : ClientState} {reply : Reply}
    {typed : Typed} (hflag : s.flag = true)
    (hcall : getStr clientId s.buffer s.input = some typed)
    (hanswered : Answered reply typed.command) :
    exists s', clientIteration clientId s reply = some s' ∧
      s'.input = typed.input ∧
      (s'.flag = false <-> typed.command = Command.quit) := by
  have hrequest : forall command,
      (exists r, r ∈ reply.received ∧ r.size = 0) ->
      forall s1 : ClientState, s1.input = typed.input -> s1.flag = true ->
      exists s', requestHandler s1 command reply = some s' ∧
        s'.input = typed.input ∧ (s'.flag = false <-> command = Command.quit) := by
    intro command hzero s1 hinput hflag1
    rcases @receiveData_isSome
      (s1.stdout ++ text "response on request:\n".toList) _ hzero with
      ⟨written, hwritten⟩
    have hhandled : requestHandler s1 command reply =
        some
          { s1 with
            sent := s1.sent ++ [encode s1.buffer]
            stdout := written.1
            buffer := written.2
            flag := if command = Command.quit then false else s1.flag } := by
      rw [requestHandler, hwritten, Option.map_some]
    refine ⟨_, hhandled, hinput, ?_⟩
    by_cases hquit : command = Command.quit
    · simp [hquit]
    · simp [hquit, hflag1]
  unfold clientIteration
  simp only [hcall]
  cases hcommand : typed.command with
  | findall =>
      rw [hcommand] at hanswered
      simp only [findallHandler]
      split
      case isTrue _ => exact ⟨_, rfl, rfl, by simp [hflag]⟩
      case isFalse _ =>
        cases hreceived : reply.received with
        | nil => exact absurd hreceived hanswered
        | cons received rest => exact ⟨_, rfl, rfl, by simp [hflag]⟩
  | unknown | print | exitCom | cd | ls | shell | quit =>
      rw [hcommand] at hanswered
      exact hrequest _ hanswered _ rfl hflag

/-!
## The whole loop
-/

section Loop

variable {clientId : Bytes} {replies : Nat -> Reply} {s s' : ClientState}

theorem mainLoop_succ {n : Nat}
    (hloop : mainLoop clientId replies s n = some s') :
    mainLoop clientId replies s (n + 1) =
      if s'.flag = true then clientIteration clientId s' (replies n) else some s' := by
  rw [mainLoop, hloop]

structure Reads (input : Bytes) (n : Nat) (s : ClientState) : Prop where
  /-- The loop has met a quit, or it has not looked at one. -/
  quits : s.flag = false -> TypesQuit input
  ahead : s.flag = true -> (TypesQuit input <-> TypesQuit s.input)
  shrinks : s.flag = true -> s.input = [] ∨ s.input.length + n ≤ input.length

theorem Reads.step {input : Bytes} {n : Nat} (h : Reads input n s')
    (hloop : mainLoop clientId replies s n = some s')
    (hanswered : AnsweredAll clientId replies s) :
    exists s'', mainLoop clientId replies s (n + 1) = some s'' ∧
      Reads input (n + 1) s'' := by
  rw [mainLoop_succ hloop]
  cases hflag : s'.flag with
  | false =>
      refine ⟨s', if_neg Bool.false_ne_true, fun _ => h.quits hflag, ?_, ?_⟩
      · intro hcontra
        exact absurd hflag (by simp [hcontra])
      · intro hcontra
        exact absurd hflag (by simp [hcontra])
  | true =>
      rw [if_pos rfl]
      rcases getStr_cases clientId s'.buffer s'.input with
        ⟨hcall, hnil⟩ | ⟨typed, hcall, hshorter, hquit⟩
      · -- the end of the input changes nothing
        have hiteration : clientIteration clientId s' (replies n) =
            some { s' with
              stdout := s'.stdout ++ text "type in your request: ".toList } := by
          simp only [clientIteration, hcall]
        refine ⟨_, hiteration, ?_, fun _ => h.ahead hflag, fun _ => Or.inl hnil⟩
        intro hcontra
        exact absurd (hflag.symm.trans hcontra) (by decide)
      · rcases clientIteration_typed hflag hcall
          (hanswered n s' typed hloop hcall) with
          ⟨s'', hiteration, hinput, hclears⟩
        have hahead := (h.ahead hflag).trans hquit
        refine ⟨s'', hiteration, ?_, ?_, ?_⟩
        · exact fun hclear => hahead.mpr (Or.inl (hclears.mp hclear))
        · intro hset
          have hother : typed.command ≠ Command.quit := by
            intro heq
            exact absurd (hset.symm.trans (hclears.mpr heq)) (by decide)
          rw [hinput, hahead]
          exact or_iff_right hother
        · intro _
          right
          rw [hinput]
          rcases h.shrinks hflag with hnil | hle
          · rw [hnil] at hshorter
            cases hshorter
          · lia

theorem Reads.run {buffer input : Bytes}
    (hanswered : AnsweredAll clientId replies (ClientState.start buffer input))
    (n : Nat) :
    exists s', mainLoop clientId replies (ClientState.start buffer input) n =
        some s' ∧ Reads input n s' := by
  induction n with
  | zero =>
      refine ⟨_, rfl, ?_, fun _ => Iff.rfl, fun _ => Or.inr (le_refl _)⟩
      intro hcontra
      cases hcontra
  | succ n ih =>
      rcases ih with ⟨s', hloop, hreads⟩
      exact hreads.step hloop hanswered

/-- The loop ends exactly when one of the pieces of the input is a quit. -/
theorem client_ends_iff {buffer input : Bytes}
    (hanswered : AnsweredAll clientId replies
      (ClientState.start buffer input)) :
    (exists n s', mainLoop clientId replies (ClientState.start buffer input) n =
        some s' ∧ s'.flag = false) <->
      TypesQuit input := by
  constructor
  · rintro ⟨n, s', hloop, hflag⟩
    rcases Reads.run hanswered n with ⟨s'', hloop', hreads⟩
    rw [hloop] at hloop'
    injection hloop' with heq
    exact (heq ▸ hreads).quits hflag
  · intro hquit
    -- one iteration takes at least one byte of the input
    rcases Reads.run hanswered (input.length + 1) with ⟨s', hloop, hreads⟩
    refine ⟨_, s', hloop, ?_⟩
    cases hflag : s'.flag with
    | false => rfl
    | true =>
        rcases hreads.shrinks hflag with hnil | hle
        · have hleft := (hreads.ahead hflag).mp hquit
          rw [hnil] at hleft
          exact absurd hleft not_typesQuit_nil
        · lia

end Loop

def emptyReply : Reply where
  broadcasts := true
  received := [{ size := 0, buffer := zeros BUFSZ }]
  ip := []

theorem emptyReply_answers (clientId : Bytes) (s : ClientState) :
    AnsweredAll clientId (fun _ => emptyReply) s := by
  have hzero : exists received, received ∈ emptyReply.received ∧
      received.size = 0 := ⟨_, List.mem_cons_self, rfl⟩
  intro n s' typed _ _
  cases typed.command with
  | findall => exact List.cons_ne_nil _ _
  | _ => exact hzero

theorem client_ends_iff_quit :
    exists n s', mainLoop zeroId (fun _ => emptyReply)
      (ClientState.start (zeros BUFSZ) (QUIT ++ [10])) n = some s' ∧
        s'.flag = false := by
  apply (client_ends_iff (emptyReply_answers _ _)).mpr
  exact ⟨QUIT ++ [10], by decide, by decide⟩

theorem client_never_ends :
    AnsweredAll zeroId (fun _ => emptyReply)
        (ClientState.start (zeros BUFSZ) (LS ++ [10])) ∧
      forall n s', mainLoop zeroId (fun _ => emptyReply)
        (ClientState.start (zeros BUFSZ) (LS ++ [10])) n = some s' ->
          s'.flag = true := by
  have hanswered := emptyReply_answers zeroId
    (ClientState.start (zeros BUFSZ) (LS ++ [10]))
  have hnever : ¬ TypesQuit (LS ++ [10]) := by
    rintro ⟨piece, hmem, hquit⟩
    have hpieces : pieces (LS ++ [10]) = [LS ++ [10]] := by decide
    rw [hpieces, List.mem_singleton] at hmem
    rw [hmem] at hquit
    revert hquit
    decide
  refine ⟨hanswered, fun n s' hloop => ?_⟩
  rcases Reads.run hanswered n with ⟨s'', hloop', hreads⟩
  rw [hloop] at hloop'
  injection hloop' with heq
  cases hflag : s'.flag with
  | true => rfl
  | false => exact absurd ((heq ▸ hreads).quits hflag) hnever

end Socket
end UnixPrograms
