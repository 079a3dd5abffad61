import UnixPrograms.Socket.UdpConversation
import UnixPrograms.Socket.UdpRouting

/-!
# The two sides of the conversation

The client of the conversation is the loop of its `main`, for the messages
that the conversation brings, and the master's step is an iteration of `master`
for a client that has a row.
-/

namespace UnixPrograms
namespace Socket

open Foundation

variable {capacity : Nat}

/-!
## The client
-/

/-- The client is in the iteration behind the first `n`, or behind its loop. -/
inductive Follows (clientId : Bytes) (first : ClientState) (s : Conversation) :
    Prop where
  | between (n : Nat) (replies : Nat -> Reply) (c : ClientState)
      (hloop : mainLoop clientId replies first n = some c)
      (hinput : s.input = c.input) (hbuffer : s.buffer = c.buffer)
      (hstdout : s.response.stdout = c.stdout)
      (hasker : s.asker = if c.flag = true then Asker.typing else Asker.ended) :
      Follows clientId first s
  | receiving (n : Nat) (replies : Nat -> Reply) (c : ClientState)
      (typed : Typed) (got : List Received)
      (hloop : mainLoop clientId replies first n = some c)
      (hflag : c.flag = true)
      (htyped : getStr clientId c.buffer c.input = some typed)
      (hcommand : typed.command ≠ Command.findall)
      (hinput : s.input = typed.input)
      (hasker : s.asker = Asker.receiving typed.command)
      (hgot : forall rest,
        receiveData (c.stdout ++ promptText ++ responseText) (got ++ rest) =
          receiveData s.response.stdout rest) : Follows clientId first s
  | finding (n : Nat) (replies : Nat -> Reply) (c : ClientState)
      (typed : Typed) (hloop : mainLoop clientId replies first n = some c)
      (hflag : c.flag = true)
      (htyped : getStr clientId c.buffer c.input = some typed)
      (hcommand : typed.command = Command.findall)
      (hinput : s.input = typed.input) (hasker : s.asker = Asker.finding)
      (hstdout : s.response.stdout = c.stdout ++ promptText) :
      Follows clientId first s

section Client

variable {clientId ip : Bytes} {first : ClientState} {s s' : Conversation}

theorem mainLoop_update (replies : Nat -> Reply) (reply : Reply) {m n : Nat}
    (h : m ≤ n) :
    mainLoop clientId (Function.update replies n reply) first m =
      mainLoop clientId replies first m := by
  induction m with
  | zero => rfl
  | succ m ih =>
      have hne : m ≠ n := Nat.ne_of_lt h
      rw [mainLoop, mainLoop, ih (Nat.le_of_succ_le h), Function.update_of_ne hne]

theorem mainLoop_next {replies : Nat -> Reply} {c : ClientState} {n : Nat}
    (hloop : mainLoop clientId replies first n = some c) (hflag : c.flag = true)
    (reply : Reply) :
    mainLoop clientId (Function.update replies n reply) first (n + 1) =
      clientIteration clientId c reply := by
  rw [mainLoop, mainLoop_update replies reply (le_refl n), hloop]
  simp only [if_pos hflag, Function.update_self]

theorem Follows.congr (h : Follows clientId first s)
    (hasker : s'.asker = s.asker) (hinput : s'.input = s.input)
    (hbuffer : s'.buffer = s.buffer)
    (hstdout : s'.response.stdout = s.response.stdout) :
    Follows clientId first s' := by
  cases h with
  | between n replies c hloop hinput' hbuffer' hstdout' hasker' =>
      exact Follows.between n replies c hloop (hinput.trans hinput')
        (hbuffer.trans hbuffer') (hstdout.trans hstdout') (hasker.trans hasker')
  | receiving n replies c typed got hloop hflag htyped hcommand hinput' hasker'
      hgot =>
      refine Follows.receiving n replies c typed got hloop hflag htyped hcommand
        (hinput.trans hinput') (hasker.trans hasker') ?_
      rw [hstdout]
      exact hgot
  | finding n replies c typed hloop hflag htyped hcommand hinput' hasker'
      hstdout' =>
      exact Follows.finding n replies c typed hloop hflag htyped hcommand
        (hinput.trans hinput') (hasker.trans hasker') (hstdout.trans hstdout')

theorem Follows.ask (h : Follows clientId first s)
    (hstep : converse capacity clientId ip s ConversationEvent.ask = some s') :
    Follows clientId first s' := by
  simp only [converse] at hstep
  split at hstep
  case isFalse => cases hstep
  case isTrue htyping =>
    rcases Option.map_eq_some_iff.mp hstep with ⟨typed, htyped, heq⟩
    cases h with
    | between n replies c hloop hinput hbuffer hstdout hasker =>
        have hflag : c.flag = true := by
          by_contra hflag
          rw [if_neg hflag, htyping] at hasker
          cases hasker
        rw [hbuffer, hinput] at htyped
        by_cases hfind : typed.command = Command.findall
        · rw [ask_findall s hfind] at heq
          rw [← heq]
          refine Follows.finding n replies c typed hloop hflag htyped hfind rfl rfl ?_
          rw [← hstdout]
          rfl
        · rw [ask_other s hfind] at heq
          rw [← heq]
          refine Follows.receiving n replies c typed [] hloop hflag htyped hfind rfl
            rfl ?_
          intro rest
          rw [← hstdout, List.nil_append]
    | receiving n replies c typed' got hloop hflag htyped' hcommand hinput hasker =>
        rw [htyping] at hasker
        cases hasker
    | finding n replies c typed' hloop hflag htyped' hcommand hinput hasker =>
        rw [htyping] at hasker
        cases hasker

theorem clientIteration_request {c : ClientState} {typed : Typed}
    (htyped : getStr clientId c.buffer c.input = some typed)
    (hcommand : typed.command ≠ Command.findall) {reply : Reply}
    {stdout buffer : Bytes}
    (hreply : receiveData (c.stdout ++ promptText ++ responseText) reply.received =
      some (stdout, buffer)) :
    clientIteration clientId c reply =
      some
        { input := typed.input
          buffer := buffer
          sent := c.sent ++ [encode typed.request]
          stdout := stdout
          flag := if typed.command = Command.quit then false else c.flag } := by
  unfold clientIteration
  simp only [htyped]
  cases hcase : typed.command with
  | findall => exact absurd hcase hcommand
  | _ =>
      simp only [requestHandler]
      rw [show text "response on request:\n".toList = responseText from rfl,
        show text "type in your request: ".toList = promptText from rfl, hreply]
      rfl

theorem clientIteration_find {c : ClientState} {typed : Typed}
    (htyped : getStr clientId c.buffer c.input = some typed)
    (hcommand : typed.command = Command.findall) (ip : Bytes)
    (received : Received) :
    clientIteration clientId c
        { broadcasts := true
          received := [received]
          ip := ip } =
      some
        { input := typed.input
          buffer := received.buffer
          sent := c.sent ++ [encode typed.request]
          stdout := c.stdout ++ promptText ++ foundText received.buffer ip
          flag := c.flag } := by
  unfold clientIteration
  simp only [htyped, hcommand, findallHandler, foundText, promptText,
    Bool.true_eq_false, if_false, List.append_assoc]

theorem respond_receive_eq {r : Response} {next : Response}
    (h : respond r ResponseEvent.receive = some next) :
    exists datagram network, r.network = datagram :: network ∧
      next =
        { r with
          network := network
          stdout := (receiveDataIteration r.stdout (some datagram)).2
          returned :=
            decide ((receiveDataIteration r.stdout (some datagram)).1 = 0) } := by
  simp only [respond] at h
  split at h
  case h_1 datagram network hreturned hnetwork =>
    cases h
    exact ⟨datagram, network, hnetwork, rfl⟩
  case h_2 => cases h

theorem Follows.receive (h : Follows clientId first s)
    (hstep : converse capacity clientId ip s ConversationEvent.receive = some s') :
    Follows clientId first s' := by
  cases h with
  | between n replies c hloop hinput hbuffer hstdout hasker =>
      cases hflag : c.flag with
      | true =>
          rw [if_pos hflag] at hasker
          simp only [converse, hasker] at hstep
          cases hstep
      | false =>
          rw [if_neg (by simp [hflag])] at hasker
          simp only [converse, hasker] at hstep
          cases hstep
  | receiving n replies c typed got hloop hflag htyped hcommand hinput hasker
      hgot =>
      simp only [converse, hasker] at hstep
      rcases Option.map_eq_some_iff.mp hstep with ⟨next, hreceive, heq⟩
      rcases respond_receive_eq hreceive with ⟨datagram, network, hnetwork, hnext⟩
      have hturn := receiveData_datagram s.response.stdout (some datagram)
      rw [← heq, hnext, Conversation.receive]
      by_cases hsize :
          (receiveDataIteration s.response.stdout (some datagram)).1 = 0
      · -- the reply is complete
        have hreply := hgot [receivedDatagram (some datagram)]
        rw [hturn, if_pos hsize] at hreply
        have hloop' := (mainLoop_next hloop hflag
          { broadcasts := true
            received := got ++ [receivedDatagram (some datagram)]
            ip := [] }).trans (clientIteration_request htyped hcommand hreply)
        refine Follows.between (n + 1) _ _ hloop' hinput ?_ rfl ?_
        · show receiveBuf s.response.network.head? = _
          rw [hnetwork, List.head?_cons]
        · simp only [decide_eq_true hsize, hflag]
          by_cases hquit : typed.command = Command.quit
          · simp [hquit]
          · simp [hquit]
      · refine Follows.receiving n replies c typed
          (got ++ [receivedDatagram (some datagram)]) hloop hflag htyped hcommand
          hinput ?_ ?_
        · simp only [decide_eq_false hsize, if_true]
        · intro rest
          rw [List.append_assoc got, hgot, List.singleton_append, hturn,
            if_neg hsize]
  | finding n replies c typed hloop hflag htyped hcommand hinput hasker
      hstdout =>
      simp only [converse, hasker] at hstep
      split at hstep
      case h_1 command hcontra => cases hcontra
      case h_2 datagram network _ hnetwork =>
        cases hstep
        have hloop' := (mainLoop_next hloop hflag _).trans
          (clientIteration_find htyped hcommand ip (receivedDatagram (some datagram)))
        refine Follows.between (n + 1) _ _ hloop' hinput rfl ?_ ?_
        · simp only [Conversation.find, Conversation.print, hstdout]
          rfl
        · simp only [hflag, if_true]
          rfl
      case h_3 => cases hstep

theorem converse_keeps_client {e : ConversationEvent}
    (hask : e ≠ ConversationEvent.ask) (hreceive : e ≠ ConversationEvent.receive)
    (hstep : converse capacity clientId ip s e = some s') :
    s'.asker = s.asker ∧ s'.input = s.input ∧ s'.buffer = s.buffer ∧
      s'.response.stdout = s.response.stdout := by
  cases e with
  | ask => exact absurd rfl hask
  | receive => exact absurd rfl hreceive
  | serve =>
      simp only [converse] at hstep
      split at hstep
      · cases hstep
      · rename_i request requests _
        cases hstep
        by_cases hfind : getCommand (separated request s.data) = Command.findall
        · rw [serve_findall requests hfind]
          exact ⟨rfl, rfl, rfl, rfl⟩
        · rw [serve_other requests hfind]
          exact ⟨rfl, rfl, rfl, rfl⟩
  | others data =>
      cases hstep
      exact ⟨rfl, rfl, rfl, rfl⟩
  | read =>
      rcases Option.map_eq_some_iff.mp hstep with ⟨next, _, heq⟩
      rw [← heq]
      exact ⟨rfl, rfl, rfl, rfl⟩
  | handle answer =>
      simp only [converse] at hstep
      split at hstep
      · rcases Option.map_eq_some_iff.mp hstep with ⟨next, _, heq⟩
        rw [← heq]
        exact ⟨rfl, rfl, rfl, rfl⟩
      · cases hstep
  | write bytes =>
      simp only [converse] at hstep
      split at hstep
      · cases hstep
        exact ⟨rfl, rfl, rfl, rfl⟩
      · cases hstep
  | send size =>
      simp only [converse] at hstep
      split at hstep
      · rcases Option.map_eq_some_iff.mp hstep with ⟨next, hread, heq⟩
        simp only [respond] at hread
        split at hread
        · cases hread
          rw [← heq]
          exact ⟨rfl, rfl, rfl, rfl⟩
        · cases hread
      · cases hstep
  | finish behind =>
      simp only [converse] at hstep
      split at hstep
      · rename_i hfinish _
        simp only [respond] at hfinish
        split at hfinish
        · cases hfinish
          cases hstep
          exact ⟨rfl, rfl, rfl, rfl⟩
        · cases hfinish
      · cases hstep
  | sigchld =>
      cases hstep
      exact ⟨rfl, rfl, rfl, rfl⟩

theorem Follows.step {e : ConversationEvent} (h : Follows clientId first s)
    (hstep : converse capacity clientId ip s e = some s') :
    Follows clientId first s' := by
  by_cases hask : e = ConversationEvent.ask
  · rw [hask] at hstep
    exact h.ask hstep
  · by_cases hreceive : e = ConversationEvent.receive
    · rw [hreceive] at hstep
      exact h.receive hstep
    · rcases converse_keeps_client hask hreceive hstep with
        ⟨hasker, hinput, hbuffer, hstdout⟩
      exact h.congr hasker hinput hbuffer hstdout

/-- At its prompt and behind its loop the client is where its main loop is for
some replies. -/
theorem conversation_follows_mainLoop {input : Bytes}
    {events : List ConversationEvent}
    (hrun : run (converse capacity clientId ip) (Conversation.start input)
      events = some s)
    (hasker : s.asker = Asker.typing ∨ s.asker = Asker.ended) :
    exists n replies c,
      mainLoop clientId replies (ClientState.start (zeros BUFSZ) input) n =
          some c ∧
        c.input = s.input ∧ c.buffer = s.buffer ∧
          c.stdout = s.response.stdout ∧
            (c.flag = true <-> s.asker = Asker.typing) := by
  have hstart : Follows clientId (ClientState.start (zeros BUFSZ) input)
      (Conversation.start input) :=
    Follows.between 0 (fun _ => emptyReply) _ rfl rfl rfl rfl rfl
  have hfollows := run_invariant _ (fun _ _ _ hs _ hstep => hs.step hstep) hstart
    (allSteps_of_forall (fun _ _ => trivial) events _) hrun
  cases hfollows with
  | between n replies c hloop hinput hbuffer hstdout hflag =>
      refine ⟨n, replies, c, hloop, hinput.symm, hbuffer.symm, hstdout.symm, ?_⟩
      rw [hflag]
      cases c.flag with
      | true => simp
      | false => simp
  | receiving n replies c typed got hloop hflag htyped hcommand hinput hreceiving =>
      rw [hreceiving] at hasker
      simp at hasker
  | finding n replies c typed hloop hflag htyped hcommand hinput hfinding =>
      rw [hfinding] at hasker
      simp at hasker

end Client

/-!
## The master
-/

theorem clientDisconnect_data (m : Master) (position : Nat) :
    (clientDisconnect m position).data = m.data := by
  unfold clientDisconnect
  by_cases hlast : m.clientsCount - 1 ≠ position
  · simp [setRow, hlast]
  · simp [setRow, hlast]

/-- The session's step for a command is the master's iteration for the row: it
brings the pipe the same text, and frees the row where `clientDisconnect` does. -/
theorem session_of_row {m : Master} {position pipe : Nat}
    (hholding : Holding m position pipe) (hopen : pipe < m.host.pipes.length)
    (s : Session) (rest : List Bytes) :
    exists text,
      (serve true m position).host.writes pipe = m.host.writes pipe ++ text ∧
        s.serve m.data rest =
          { s with
            commands := rest
            pipe := s.pipe ++ text.flatten
            rowFreed :=
              s.rowFreed || decide (getCommand m.data = Command.quit) } ∧
          (getCommand m.data = Command.quit ->
            serve true m position =
              clientDisconnect (written m pipe) position) := by
  by_cases hcommand : getCommand m.data = Command.findall
  · have hquit : getCommand m.data ≠ Command.quit := by
      rw [hcommand]
      exact Command.noConfusion
    refine ⟨[], ?_, ?_, fun h => absurd h hquit⟩
    · rw [serve_of_findall true m position hcommand, List.append_nil]
      rfl
    · rw [Session.serve, hcommand]
      simp only [List.flatten_nil, List.append_nil, reduceCtorEq, decide_false,
        Bool.or_false]
  · have hwrites : (written m pipe).host.writes pipe =
        m.host.writes pipe ++ [cstr m.data] := by
      rw [writes_written m pipe hopen, if_pos rfl]
    refine ⟨[cstr m.data], ?_, ?_, ?_⟩
    · rw [serve_of_holding hcommand hholding, ← hwrites]
      split
      · rw [clientDisconnect_host]
        rfl
      · rfl
    · rw [serve_of_written rest hcommand, List.flatten_singleton]
    · intro hquit
      rw [serve_of_holding hcommand hholding, if_pos hquit]

theorem answer_of_row {m : Master} {position pipe : Nat}
    (hholding : Holding m position pipe)
    (hcommand : getCommand m.data ≠ Command.findall) :
    (serve true m position).host.sent = m.host.sent ∧
      (serve true m position).data = m.data := by
  rw [serve_of_holding hcommand hholding]
  split
  · rw [clientDisconnect_host, clientDisconnect_data]
    exact ⟨rfl, rfl⟩
  · exact ⟨rfl, rfl⟩

/-- What the master does for a client whose row holds a pipe: the text in the
pipe, its own answer and `data` are those of the conversation's step. -/
theorem serve_of_row {m : Master} {position pipe : Nat} {request : Bytes}
    {s : Conversation} (hdata : m.data = separated request s.data)
    (hholding : Holding m position pipe) (hopen : pipe < m.host.pipes.length)
    (hnone : s.session.commands = []) (requests : List Bytes) :
    exists text answer,
      (serve true m position).host.writes pipe = m.host.writes pipe ++ text ∧
        (serve true m position).host.sent = m.host.sent ++ answer ∧
        s.serve request requests =
          { s with
            requests := requests
            data := (serve true m position).data
            session :=
              { s.session with
                pipe := s.session.pipe ++ text.flatten
                rowFreed :=
                  s.session.rowFreed ||
                    decide (getCommand m.data = Command.quit) }
            response :=
              { s.response with network := s.response.network ++ answer } } := by
  rcases session_of_row hholding hopen s.session s.session.commands with
    ⟨text, hwrites, hsession, _⟩
  by_cases hcommand : getCommand m.data = Command.findall
  · have hserved : s.session.serve m.data [] =
        { s.session with commands := [] } := by
      rw [Session.serve, hcommand]
    have hcommand' := hcommand
    rw [hdata] at hcommand'
    refine ⟨text, [datagramOf (strcpy m.data serverText)], hwrites, ?_, ?_⟩
    · rw [serve_of_findall true m position hcommand]
      rfl
    · rw [← hsession, hnone, hserved, serve_of_findall true m position hcommand,
        serve_findall requests hcommand', ← hdata, ← hnone]
      rfl
  · rcases answer_of_row hholding hcommand with ⟨hsent, hkept⟩
    rw [hdata] at hcommand
    refine ⟨text, [], hwrites, ?_, ?_⟩
    · rw [hsent, List.append_nil]
    · rw [← hsession, hkept, serve_other requests hcommand, ← hdata, hnone,
        List.append_nil]

end Socket
end UnixPrograms
