import UnixPrograms.Socket.ClientLoop
import UnixPrograms.Socket.UdpCommands

/-!
# A client's conversation over UDP

The loop of the client, the master, the client's slave and the network
together, in every interleaving.  The client sends a request only after it has
read the whole response to the one before, so that no two commands meet in the
slave's pipe.  The network keeps the datagrams in order and loses none, every
system call succeeds, and the master has a row for the client; what it does for
other clients only changes its array `data`.

The client's standard input and output are a terminal.  Whole lines are typed
and nobody ends them, so that the client waits in `get_str` where it has read
them all.  What a call of `handler` writes fits into `buf_pipe`, whose capacity
is a parameter: on more than that the slave would block in `handler`.
-/

namespace UnixPrograms
namespace Socket

open Foundation

variable {capacity : Nat}

inductive Asker where
  /-- In `get_str`. -/
  | typing
  /-- In `receive_data`, after a request with this command. -/
  | receiving (command : Command)
  /-- In the `receive_buf` of `findall_handler`. -/
  | finding
  | ended
deriving DecidableEq

/-- The client with its standard input and its request buffer, the requests on
the network, `data` of the master, the slave with the pipe to it, its output
pipe with the datagrams and the client's standard output behind it, and what
each call of `handler` has written. -/
structure Conversation where
  asker : Asker
  input : Bytes
  buffer : Bytes
  requests : List Bytes
  data : Bytes
  session : Session
  response : Response
  outputs : List Bytes

def Conversation.start (input : Bytes) : Conversation where
  asker := Asker.typing
  input := input
  buffer := zeros BUFSZ
  requests := []
  data := zeros BUFSZ
  session := Session.start []
  response :=
    { pipe := []
      ended := true
      network := []
      stdout := []
      returned := true }
  outputs := []

inductive ConversationEvent where
  /-- The client types a request and sends it. -/
  | ask
  | receive
  /-- The master serves the next request. -/
  | serve
  /-- The master serves another client. -/
  | others (data : Bytes)
  | read
  /-- The slave goes on in `handler`. -/
  | handle (answer : Answer)
  /-- `handler`, or a child that it waits for, writes to the output pipe as much
  as it has room for. -/
  | write (bytes : Bytes)
  /-- `send_data` sends a chunk. -/
  | send (size : Nat)
  | finish (behind : Bytes)
  | sigchld
deriving DecidableEq

def promptText : Bytes := text "type in your request: ".toList
def responseText : Bytes := text "response on request:\n".toList
def serverText : Bytes := text ['s', 'e', 'r', 'v', 'e', 'r']

def foundText (buffer ip : Bytes) : Bytes :=
  text "find server, buf: (".toList ++ cstr buffer ++ text "), ip: ".toList ++ ip ++
    text "\n".toList

/-- The call of `handler` and what it makes the slave wait for. -/
def SlavePoint.handles : SlavePoint -> Bool
  | SlavePoint.reading => false
  | SlavePoint.sendData _ => false
  | SlavePoint.ended => false
  | _ => true

def Conversation.print (s : Conversation) (text : Bytes) : Conversation :=
  { s with response := { s.response with stdout := s.response.stdout ++ text } }

/-- `send_buf` encodes the request in place.  The switch on the broadcast mode
succeeds. -/
def Conversation.ask (s : Conversation) (typed : Typed) : Conversation :=
  let s :=
    { s.print promptText with
      input := typed.input
      buffer := encode typed.request
      requests := s.requests ++ [datagramOf typed.request] }
  match typed.command with
  | Command.findall => { s with asker := Asker.finding }
  | command =>
      let s := s.print responseText
      { s with
        asker := Asker.receiving command
        response :=
          { s.response with
            ended := false
            returned := false } }

def Conversation.receive (s : Conversation) (command : Command)
    (response : Response) : Conversation :=
  { s with
    asker :=
      if response.returned = false then Asker.receiving command
      else if command = Command.quit then Asker.ended
      else Asker.typing
    buffer := receiveBuf s.response.network.head?
    response := response }

/-- The end of `findall_handler`. -/
def Conversation.find (ip : Bytes) (s : Conversation) (datagram : Bytes)
    (network : List Bytes) : Conversation :=
  let buffer := receiveBuf (some datagram)
  let s := { s with response := { s.response with network := network } }
  { s.print (foundText buffer ip) with
    asker := Asker.typing
    buffer := buffer }

def separated (datagram data : Bytes) : Bytes :=
  (separateBuffer (receiveBuf (some datagram)) data).2

def Conversation.serve (s : Conversation) (request : Bytes)
    (requests : List Bytes) : Conversation :=
  let data := separated request s.data
  let s :=
    { s with
      requests := requests
      data := data }
  match getCommand data with
  | Command.findall =>
      let data := strcpy data serverText
      { s with
        data := encode data
        response :=
          { s.response with network := s.response.network ++ [datagramOf data] } }
  | _ => { s with session := s.session.serve data [] }

def addOutput (outputs : List Bytes) (bytes : Bytes) : List Bytes :=
  outputs.dropLast ++ [outputs.getLast?.getD [] ++ bytes]

def converse (capacity : Nat) (clientId ip : Bytes) (s : Conversation) :
    ConversationEvent -> Option Conversation
  | ConversationEvent.ask =>
      if s.asker = Asker.typing then
        (getStr clientId s.buffer s.input).map s.ask
      else
        none
  | ConversationEvent.receive =>
      match s.asker, s.response.network with
      | Asker.receiving command, _ =>
          (respond s.response ResponseEvent.receive).map (s.receive command)
      | Asker.finding, datagram :: network => some (s.find ip datagram network)
      | _, _ => none
  | ConversationEvent.serve =>
      match s.requests with
      | [] => none
      | request :: requests => some (s.serve request requests)
  | ConversationEvent.others data => some { s with data := data }
  | ConversationEvent.read =>
      (session s.session SessionEvent.read).map
        (fun session =>
          { s with
            session := session
            outputs := s.outputs ++ [[]] })
  | ConversationEvent.handle answer =>
      if s.session.point.handles = true then
        (session s.session (SessionEvent.slave answer)).map
          (fun session => { s with session := session })
      else
        none
  | ConversationEvent.write bytes =>
      if s.session.point.handles = true ∧ bytes ≠ [] ∧
          s.response.pipe.length + bytes.length ≤ capacity then
        some
          { s with
            response := { s.response with pipe := s.response.pipe ++ bytes }
            outputs := addOutput s.outputs bytes }
      else
        none
  | ConversationEvent.send size =>
      match s.session.point with
      | SlavePoint.sendData _ =>
          (respond s.response (ResponseEvent.read size)).map
            (fun response => { s with response := response })
      | _ => none
  | ConversationEvent.finish behind =>
      match s.session.point,
        respond s.response (ResponseEvent.finish behind),
        session s.session (SessionEvent.slave Answer.done) with
      | SlavePoint.sendData _, some response, some session =>
          some
            { s with
              session := session
              response := response }
      | _, _, _ => none
  | ConversationEvent.sigchld =>
      (session s.session SessionEvent.sigchld).map
        (fun session => { s with session := session })

def handled (pieces : List Bytes) : List Bytes :=
  pieces.filter (fun piece => getCommand piece ≠ Command.findall)

/-- What the client prints for its requests, with the response of each call of
`handler`. -/
def transcript (ip : Bytes) : List Bytes -> List Bytes -> Bytes
  | [], _ => []
  | piece :: pieces, responses =>
      if getCommand piece = Command.findall then
        promptText ++ foundText serverText ip ++ transcript ip pieces responses
      else
        promptText ++ responseText ++ responses.headD [] ++
          transcript ip pieces responses.tail

def sentSize : ConversationEvent -> Option Nat
  | ConversationEvent.send size => some size
  | _ => none

/-!
## The transcript
-/

theorem handled_append (pieces more : List Bytes) :
    handled (pieces ++ more) = handled pieces ++ handled more :=
  List.filter_append pieces more

theorem handled_findall {piece : Bytes} (h : getCommand piece = Command.findall) :
    handled [piece] = [] := by
  simp [handled, h]

theorem handled_other {piece : Bytes} (h : getCommand piece ≠ Command.findall) :
    handled [piece] = [piece] := by
  simp [handled, h]

theorem handled_cons_findall {piece : Bytes} (pieces : List Bytes)
    (h : getCommand piece = Command.findall) :
    handled (piece :: pieces) = handled pieces :=
  List.filter_cons_of_neg (by simpa using h)

theorem handled_cons_other {piece : Bytes} (pieces : List Bytes)
    (h : getCommand piece ≠ Command.findall) :
    handled (piece :: pieces) = piece :: handled pieces :=
  List.filter_cons_of_pos (by simpa using h)

theorem transcript_append (ip : Bytes) {pieces responses : List Bytes}
    (h : responses.length = (handled pieces).length) (piece : Bytes)
    (more : List Bytes) :
    transcript ip (pieces ++ [piece]) (responses ++ more) =
      transcript ip pieces responses ++ transcript ip [piece] more := by
  induction pieces generalizing responses with
  | nil =>
      rw [List.length_eq_zero_iff.mp h]
      rfl
  | cons first pieces ih =>
      rw [List.cons_append, transcript, transcript]
      by_cases hfind : getCommand first = Command.findall
      · rw [handled_cons_findall pieces hfind] at h
        rw [if_pos hfind, if_pos hfind, ih h]
        simp only [List.append_assoc]
      · rw [handled_cons_other pieces hfind] at h
        cases responses with
        | nil => cases h
        | cons response responses =>
            rw [if_neg hfind, if_neg hfind, List.cons_append, List.headD_cons,
              List.headD_cons, List.tail_cons, List.tail_cons,
              ih (Nat.succ.inj h)]
            simp only [List.append_assoc]

theorem transcript_length (ip : Bytes) {pieces responses : List Bytes}
    (h : responses.length = (handled pieces).length) :
    (transcript ip pieces responses).length =
      (transcript ip pieces []).length + responses.flatten.length := by
  induction pieces generalizing responses with
  | nil =>
      rw [List.length_eq_zero_iff.mp h]
      rfl
  | cons first pieces ih =>
      rw [transcript, transcript]
      by_cases hfind : getCommand first = Command.findall
      · rw [handled_cons_findall pieces hfind] at h
        rw [if_pos hfind, if_pos hfind]
        simp only [List.length_append, ih h]
        lia
      · rw [handled_cons_other pieces hfind] at h
        cases responses with
        | nil => cases h
        | cons response responses =>
            have hrest := ih (Nat.succ.inj h)
            rw [if_neg hfind, if_neg hfind, List.headD_cons, List.tail_cons,
              List.headD_nil, List.tail_nil, List.flatten_cons]
            simp only [List.length_append, List.length_nil, hrest]
            lia

/-!
## Where a request is

There is at most one request under way.  It is on the network, in the pipe of the
slave, in a call of `handler`, or in a response that has not been received.
-/

def Response.behind (before : Bytes) (r : Response) : Response :=
  { r with stdout := before ++ r.stdout }

theorem respond_behind (before : Bytes) (r : Response) (e : ResponseEvent) :
    respond (r.behind before) e = (respond r e).map (Response.behind before) := by
  cases e with
  | read size =>
      rw [respond, respond, apply_ite (Option.map (Response.behind before))]
      rfl
  | finish behind =>
      rw [respond, respond, apply_ite (Option.map (Response.behind before))]
      rfl
  | receive =>
      simp only [respond, Response.behind, receiveDataIteration_some]
      cases r.returned with
      | true => rfl
      | false =>
          cases r.network with
          | nil => rfl
          | cons datagram network =>
              simp only [Option.map_some, Response.behind, List.append_assoc]

def arrived (chunks : List Bytes) : Bytes :=
  (chunks.map (fun chunk => chunk.take (BUFSZ - 1))).flatten

def SlavePoint.busy : SlavePoint -> Bool
  | SlavePoint.reading => false
  | SlavePoint.ended => false
  | _ => true

structure AtRest (asked : List Bytes) (answers : List (List Bytes))
    (s : Conversation) : Prop where
  order : InOrder (handled asked) s.session
  pipe : s.session.pipe = []
  quiet : s.session.point.busy = false
  outputs : s.outputs = answers.map List.flatten
  printed : s.response.pipe = []

theorem AtRest.of_eq {asked : List Bytes} {answers : List (List Bytes)}
    {s s' : Conversation} (h : AtRest asked answers s)
    (hsession : s'.session = s.session) (houtputs : s'.outputs = s.outputs)
    (hpipe : s'.response.pipe = s.response.pipe) : AtRest asked answers s' where
  order := hsession ▸ h.order
  pipe := by rw [hsession, h.pipe]
  quiet := by rw [hsession, h.quiet]
  outputs := houtputs.trans h.outputs
  printed := hpipe.trans h.printed

/-- `handler` has been called with this request and has written this output;
`before` is what the client has printed for the requests before it. -/
structure Called (input : Bytes) (asked : List Bytes)
    (answers : List (List Bytes)) (before piece output : Bytes)
    (got inFlight : List Bytes) (r : Response) (s : Conversation) : Prop where
  pieces : pieces input = asked ++ piece :: pieces s.input
  command : getCommand piece ≠ Command.findall
  order : InOrder (handled asked ++ [piece]) s.session
  pipe : s.session.pipe = []
  outputs : s.outputs = answers.map List.flatten ++ [output]
  asker : s.asker = Asker.receiving (getCommand piece)
  requests : s.requests = []
  response : s.response = r.behind (before ++ promptText ++ responseText)
  delivery : Delivery output got inFlight r
  maskable : Maskable output
  ended : r.ended = !s.session.point.busy
  returned : r.returned = false
  first : s.session.point.handles = true -> got ++ inFlight = []

inductive Place (input : Bytes) (asked : List Bytes)
    (answers : List (List Bytes)) (before : Bytes) (s : Conversation) :
    List Bytes -> Prop where
  | nowhere (hpieces : pieces input = asked ++ pieces s.input)
      (hrest : AtRest asked answers s)
      (hasker : s.asker = Asker.typing ∧ s.session.point = SlavePoint.reading ∨
        s.asker = Asker.ended)
      (hrequests : s.requests = []) (hnetwork : s.response.network = [])
      (hstdout : s.response.stdout = before) : Place input asked answers before s []
  | finding (piece request : Bytes)
      (hpieces : pieces input = asked ++ piece :: pieces s.input)
      (hcommand : getCommand piece = Command.findall)
      (harrives : forall data, cstr (separated request data) = piece)
      (hrest : AtRest asked answers s)
      (hpoint : s.session.point = SlavePoint.reading)
      (hasker : s.asker = Asker.finding)
      (hway : s.requests = [request] ∧ s.response.network = [] ∨
        s.requests = [] ∧ exists data,
          s.response.network = [datagramOf (strcpy data serverText)])
      (hstdout : s.response.stdout = before ++ promptText) :
      Place input asked answers before s []
  | sent (piece request : Bytes)
      (hpieces : pieces input = asked ++ piece :: pieces s.input)
      (hcommand : getCommand piece ≠ Command.findall)
      (harrives : forall data, cstr (separated request data) = piece)
      (hrest : AtRest asked answers s)
      (hpoint : s.session.point = SlavePoint.reading)
      (hasker : s.asker = Asker.receiving (getCommand piece))
      (hrequests : s.requests = [request])
      (hresponse : s.response =
        (Response.start []).behind (before ++ promptText ++ responseText)) :
      Place input asked answers before s []
  | served (piece : Bytes)
      (hpieces : pieces input = asked ++ piece :: pieces s.input)
      (hcommand : getCommand piece ≠ Command.findall)
      (horder : InOrder (handled asked ++ [piece]) s.session)
      (hpipe : s.session.pipe ≠ [])
      (houtputs : s.outputs = answers.map List.flatten)
      (hpoint : s.session.point = SlavePoint.reading)
      (hasker : s.asker = Asker.receiving (getCommand piece))
      (hrequests : s.requests = [])
      (hresponse : s.response =
        (Response.start []).behind (before ++ promptText ++ responseText)) :
      Place input asked answers before s []
  | called (piece output : Bytes) (got inFlight : List Bytes) (r : Response)
      (h : Called input asked answers before piece output got inFlight r s) :
      Place input asked answers before s (got ++ inFlight)

/-- The exchanges that are over, with the chunks of their responses, and the
one that is not. -/
structure Talk (ip input : Bytes) (asked : List Bytes)
    (answers : List (List Bytes)) (chunks : List Bytes) (s : Conversation) :
    Prop where
  counted : answers.length = (handled asked).length
  commands : s.session.commands = []
  maskable : Maskable s.input
  place : Place input asked answers (transcript ip asked (answers.map arrived)) s
    chunks

theorem Talk.start {input : Bytes} (ip : Bytes) (h : Maskable input) :
    Talk ip input [] [] [] (Conversation.start input) where
  counted := rfl
  commands := rfl
  maskable := h
  place :=
    Place.nowhere rfl ⟨InOrder.start [], rfl, rfl, rfl, rfl⟩
      (Or.inl ⟨rfl, rfl⟩) rfl rfl rfl

/-!
## Requests on their way
-/

theorem getStr_pieces {clientId buffer input : Bytes} {typed : Typed}
    (h : getStr clientId buffer input = some typed) :
    pieces input = typed.piece :: pieces typed.input ∧
      typed.command = getCommand typed.piece := by
  unfold getStr at h
  cases hread : fgets (BUFSZ - IDSZ) input with
  | none =>
      rw [hread] at h
      cases h
  | some pair =>
      rcases pair with ⟨read, rest⟩
      rw [hread] at h
      injection h with h
      rw [← h]
      constructor
      · exact pieces_cons hread
      · exact getCommand_congr (cstr_append_zeros read _)

theorem piece_bounds {fuel : Nat} {input piece : Bytes}
    (h : piece ∈ piecesWithin fuel input) :
    piece ≠ [] ∧ piece.length ≤ 245 ∧ piece ⊆ input := by
  induction fuel generalizing input with
  | zero => cases h
  | succ fuel ih =>
      rw [piecesWithin] at h
      cases hread : fgets (BUFSZ - IDSZ) input with
      | none =>
          rw [hread] at h
          cases h
      | some pair =>
          rcases pair with ⟨read, rest⟩
          rcases fgets_split hread with ⟨hsplit, hlength, hshorter⟩
          rw [hread] at h
          rcases List.mem_cons.mp h with heq | hmem
          · rw [heq]
            refine ⟨?_, hlength, ?_⟩
            · intro hnil
              have hlt := hshorter (by decide)
              rw [hsplit, hnil, List.nil_append] at hlt
              exact Nat.lt_irrefl _ hlt
            · rw [hsplit]
              exact List.subset_append_left read rest
          · rcases ih hmem with ⟨hne, hle, hsub⟩
            refine ⟨hne, hle, ?_⟩
            rw [hsplit]
            exact List.subset_append_of_subset_right read hsub

theorem isCommand_piece {input piece : Bytes} (hinput : Maskable input)
    (h : piece ∈ handled (pieces input)) : IsCommand piece := by
  rcases List.mem_filter.mp h with ⟨hmem, hcommand⟩
  rcases piece_bounds hmem with ⟨hne, hlength, hsub⟩
  exact ⟨(hinput.of_subset hsub).noNul, hne, hlength, by simpa using hcommand⟩

theorem ask_findall {typed : Typed} (s : Conversation)
    (h : typed.command = Command.findall) :
    s.ask typed =
      { s.print promptText with
        asker := Asker.finding
        input := typed.input
        buffer := encode typed.request
        requests := s.requests ++ [datagramOf typed.request] } := by
  simp only [Conversation.ask, h]

theorem ask_other {typed : Typed} (s : Conversation)
    (h : typed.command ≠ Command.findall) :
    s.ask typed =
      { s with
        asker := Asker.receiving typed.command
        input := typed.input
        buffer := encode typed.request
        requests := s.requests ++ [datagramOf typed.request]
        response :=
          { s.response with
            stdout := s.response.stdout ++ promptText ++ responseText
            ended := false
            returned := false } } := by
  simp only [Conversation.ask, Conversation.print]

theorem Talk.ask {clientId ip input : Bytes} (hid : IsClientId clientId)
    {asked : List Bytes} {answers : List (List Bytes)} {chunks : List Bytes}
    {s s' : Conversation} (h : Talk ip input asked answers chunks s)
    (hstep : converse capacity clientId ip s ConversationEvent.ask = some s') :
    Talk ip input asked answers chunks s' := by
  simp only [converse] at hstep
  split at hstep
  case isFalse => cases hstep
  case isTrue htyping =>
    rcases Option.map_eq_some_iff.mp hstep with ⟨typed, htyped, heq⟩
    rcases getStr_spec hid h.maskable htyped with ⟨harrives, hsplit⟩
    rcases getStr_pieces htyped with ⟨hmore, hcommand⟩
    rcases h with ⟨hcounted, hcommands, hmaskable, hplace⟩
    have hmaskable' : Maskable typed.input := by
      apply hmaskable.of_subset
      rw [hsplit]
      exact List.subset_append_right typed.piece typed.input
    cases hplace with
    | nowhere hpieces hrest hasker hrequests hnetwork hstdout =>
        have hpoint : s.session.point = SlavePoint.reading := by
          rcases hasker with ⟨_, hpoint⟩ | hended
          · exact hpoint
          · rw [htyping] at hended
            cases hended
        rw [hmore] at hpieces
        by_cases hfind : typed.command = Command.findall
        · rw [ask_findall s hfind] at heq
          rw [← heq]
          refine ⟨hcounted, hcommands, hmaskable', ?_⟩
          refine Place.finding typed.piece (datagramOf typed.request) hpieces
            (hcommand ▸ hfind) harrives.arrives (hrest.of_eq rfl rfl rfl) hpoint rfl
            (Or.inl ?_) ?_
          · exact ⟨by rw [hrequests, List.nil_append], hnetwork⟩
          · rw [← hstdout]
            rfl
        · rw [ask_other s hfind] at heq
          rw [← heq]
          refine ⟨hcounted, hcommands, hmaskable', ?_⟩
          refine Place.sent typed.piece (datagramOf typed.request) hpieces
            (hcommand ▸ hfind) harrives.arrives (hrest.of_eq rfl rfl rfl) hpoint
            (by rw [hcommand]) (by rw [hrequests, List.nil_append]) ?_
          simp only [hrest.printed, hnetwork, hstdout, Response.behind,
            Response.start, List.append_nil]
    | finding piece request hpieces hcommand harrives hrest hpoint hasker =>
        rw [htyping] at hasker
        cases hasker
    | sent piece request hpieces hcommand harrives hrest hpoint hasker =>
        rw [htyping] at hasker
        cases hasker
    | served piece hpieces hcommand horder hpipe houtputs hpoint hasker =>
        rw [htyping] at hasker
        cases hasker
    | called piece output got inFlight r hcalled =>
        have hasker := hcalled.asker
        rw [htyping] at hasker
        cases hasker

theorem InOrder.pass {commands : List Bytes} {piece data : Bytes}
    (hcommands : forall command, command ∈ commands ++ [piece] ->
      IsCommand command)
    {s : Session} (h : InOrder commands s) (hnone : s.commands = [])
    (hpipe : s.pipe = []) (hdata : cstr data = piece) :
    InOrder (commands ++ [piece]) (s.serve data []) ∧
      (s.serve data []).pipe ≠ [] ∧ (s.serve data []).point = s.point ∧
        (s.serve data []).commands = [] := by
  have hpiece : IsCommand piece := hcommands piece (by simp)
  have hsame : getCommand data = getCommand piece := by
    apply getCommand_congr
    rw [hdata]
    exact (cstr_of_noNul hpiece.noNul).symm
  have hserved := serve_of_written (s := s) [] (hsame ▸ hpiece.written)
  rw [hdata, hsame] at hserved
  have hfuture : InOrder (commands ++ [piece]) { s with commands := [piece] } := by
    refine ⟨?_, h.terminated, h.short, h.noNul, h.place⟩
    rw [← h.order, hnone, List.append_nil]
  have hpassed := hfuture.serve hcommands hpipe rfl
  rw [serve_of_written [] hpiece.written, cstr_of_noNul hpiece.noNul] at hpassed
  rw [hserved]
  refine ⟨hpassed, ?_, rfl, rfl⟩
  show s.pipe ++ piece ≠ []
  rw [hpipe]
  exact hpiece.nonempty

theorem serve_findall {s : Conversation} {request : Bytes}
    (requests : List Bytes)
    (h : getCommand (separated request s.data) = Command.findall) :
    s.serve request requests =
      { s with
        requests := requests
        data := encode (strcpy (separated request s.data) serverText)
        response :=
          { s.response with
            network := s.response.network ++
              [datagramOf (strcpy (separated request s.data) serverText)] } } := by
  simp only [Conversation.serve, h]

theorem serve_other {s : Conversation} {request : Bytes}
    (requests : List Bytes)
    (h : getCommand (separated request s.data) ≠ Command.findall) :
    s.serve request requests =
      { s with
        requests := requests
        data := separated request s.data
        session := s.session.serve (separated request s.data) [] } := by
  simp only [Conversation.serve]

theorem isCommand_asked {input : Bytes} (hinput : Maskable input)
    {asked later : List Bytes} {piece : Bytes}
    (hpieces : pieces input = asked ++ piece :: later)
    (hcommand : getCommand piece ≠ Command.findall) :
    forall command, command ∈ handled asked ++ [piece] -> IsCommand command := by
  intro command hmem
  apply isCommand_piece hinput
  rw [hpieces, handled_append, handled_cons_other later hcommand]
  rcases List.mem_append.mp hmem with hmem | hmem
  · exact List.mem_append_left _ hmem
  · rw [List.mem_singleton.mp hmem]
    exact List.mem_append_right _ List.mem_cons_self

theorem Talk.serve {clientId ip input : Bytes} (hinput : Maskable input)
    {asked : List Bytes} {answers : List (List Bytes)} {chunks : List Bytes}
    {s s' : Conversation} (h : Talk ip input asked answers chunks s)
    (hstep : converse capacity clientId ip s ConversationEvent.serve = some s') :
    Talk ip input asked answers chunks s' := by
  rcases h with ⟨hcounted, hcommands, hmaskable, hplace⟩
  cases hplace with
  | nowhere hpieces hrest hasker hrequests hnetwork hstdout =>
      simp only [converse, hrequests] at hstep
      cases hstep
  | finding piece request hpieces hcommand harrives hrest hpoint hasker hway
      hstdout =>
      rcases hway with ⟨hrequests, hnetwork⟩ | ⟨hrequests, hnetwork⟩
      · have hsame : getCommand (separated request s.data) = Command.findall := by
          rw [← hcommand]
          apply getCommand_congr
          rw [harrives, ← harrives s.data, cstr_cstr]
        simp only [converse, hrequests] at hstep
        rw [serve_findall [] hsame] at hstep
        cases hstep
        refine ⟨hcounted, hcommands, hmaskable, ?_⟩
        refine Place.finding piece request hpieces hcommand harrives
          (hrest.of_eq rfl rfl rfl) hpoint hasker (Or.inr ⟨rfl, ?_⟩) hstdout
        exact ⟨separated request s.data, by rw [hnetwork, List.nil_append]⟩
      · simp only [converse, hrequests] at hstep
        cases hstep
  | sent piece request hpieces hcommand harrives hrest hpoint hasker hrequests
      hresponse =>
      have hsame : getCommand (separated request s.data) ≠ Command.findall := by
        intro hfind
        apply hcommand
        rw [← hfind]
        apply getCommand_congr
        rw [harrives, ← harrives s.data, cstr_cstr]
      simp only [converse, hrequests] at hstep
      rw [serve_other [] hsame] at hstep
      cases hstep
      rcases hrest.order.pass (isCommand_asked hinput hpieces hcommand) hcommands
        hrest.pipe (harrives s.data) with ⟨horder, hpipe, hstays, hnone⟩
      refine ⟨hcounted, hnone, hmaskable, ?_⟩
      exact Place.served piece hpieces hcommand horder hpipe hrest.outputs
        (hstays.trans hpoint) hasker rfl hresponse
  | served piece hpieces hcommand horder hpipe houtputs hpoint hasker hrequests
      hresponse =>
      simp only [converse, hrequests] at hstep
      cases hstep
  | called piece output got inFlight r hcalled =>
      simp only [converse, hcalled.requests] at hstep
      cases hstep

/-!
## The call of `handler`

While `handler` and `send_data` are busy, what has been written is either in the
output pipe, in flight, or printed by the client.
-/

theorem Place.of_busy {input before : Bytes} {asked : List Bytes}
    {answers : List (List Bytes)} {chunks : List Bytes} {s : Conversation}
    (h : Place input asked answers before s chunks)
    (hbusy : s.session.point.busy = true) :
    exists piece output got inFlight r, chunks = got ++ inFlight ∧
      Called input asked answers before piece output got inFlight r s := by
  cases h with
  | nowhere hpieces hrest =>
      rw [hrest.quiet] at hbusy
      cases hbusy
  | finding piece request hpieces hcommand harrives hrest =>
      rw [hrest.quiet] at hbusy
      cases hbusy
  | sent piece request hpieces hcommand harrives hrest =>
      rw [hrest.quiet] at hbusy
      cases hbusy
  | served piece hpieces hcommand horder hpipe houtputs hpoint =>
      rw [hpoint] at hbusy
      cases hbusy
  | called piece output got inFlight r hcalled => exact ⟨_, _, _, _, _, rfl, hcalled⟩

theorem Place.of_pipe {input before : Bytes} {asked : List Bytes}
    {answers : List (List Bytes)} {chunks : List Bytes} {s : Conversation}
    (h : Place input asked answers before s chunks)
    (hpipe : s.session.pipe ≠ []) :
    exists piece, chunks = [] ∧
      pieces input = asked ++ piece :: pieces s.input ∧
      getCommand piece ≠ Command.findall ∧
      InOrder (handled asked ++ [piece]) s.session ∧
      s.outputs = answers.map List.flatten ∧
      s.asker = Asker.receiving (getCommand piece) ∧ s.requests = [] ∧
      s.response =
        (Response.start []).behind (before ++ promptText ++ responseText) := by
  cases h with
  | nowhere hpieces hrest => exact absurd hrest.pipe hpipe
  | finding piece request hpieces hcommand harrives hrest =>
      exact absurd hrest.pipe hpipe
  | sent piece request hpieces hcommand harrives hrest =>
      exact absurd hrest.pipe hpipe
  | served piece hpieces hcommand horder _ houtputs hpoint hasker hrequests
      hresponse =>
      exact ⟨piece, rfl, hpieces, hcommand, horder, houtputs, hasker, hrequests,
        hresponse⟩
  | called piece output got inFlight r hcalled => exact absurd hcalled.pipe hpipe

theorem Talk.read {clientId ip input : Bytes} (hinput : Maskable input)
    {asked : List Bytes} {answers : List (List Bytes)} {chunks : List Bytes}
    {s s' : Conversation} (h : Talk ip input asked answers chunks s)
    (hstep : converse capacity clientId ip s ConversationEvent.read = some s') :
    Talk ip input asked answers chunks s' := by
  rcases Option.map_eq_some_iff.mp hstep with ⟨next, hread, heq⟩
  rcases read_cases hread with ⟨_, hpipe, hnext⟩
  rcases h with ⟨hcounted, hcommands, hmaskable, hplace⟩
  rcases hplace.of_pipe hpipe with
    ⟨piece, hchunks, hpieces, hcommand, horder, houtputs, hasker, hrequests,
      hresponse⟩
  have horder' := horder.step (isCommand_asked hinput hpieces hcommand)
    (by intro hmaster; cases hmaster) hread
  have hempty : s.session.pipe.drop BUFSZ = [] :=
    List.drop_of_length_le (le_trans horder.short (by decide))
  rw [hnext] at heq horder'
  have hcalled : Called input asked answers
      (transcript ip asked (answers.map arrived)) piece [] [] []
      (Response.start []) s' := by
    rw [← heq]
    exact
      { pieces := hpieces
        command := hcommand
        order := horder'
        pipe := hempty
        outputs := by rw [houtputs]
        asker := hasker
        requests := hrequests
        response := hresponse
        delivery := Delivery.start []
        maskable := by
          intro b hb
          cases hb
        ended := rfl
        returned := rfl
        first := fun _ => rfl }
  rw [hchunks]
  rw [← heq] at hcalled ⊢
  exact ⟨hcounted, hcommands, hmaskable, Place.called piece [] [] [] _ hcalled⟩

theorem SlavePoint.busy_of_handles {point : SlavePoint}
    (h : point.handles = true) : point.busy = true := by
  cases point with
  | reading => cases h
  | sendData flag => rfl
  | ended => cases h
  | _ => rfl

theorem Moves.busy {shellfd shellfd' : Int} {point point' : SlavePoint}
    (h : Moves shellfd point shellfd' point') (hhandles : point.handles = true) :
    point'.busy = true := by
  cases h with
  | again flag hflag => cases hhandles
  | leave => cases hhandles
  | _ => rfl

section Busy

variable {clientId ip input : Bytes} {asked : List Bytes}
  {answers : List (List Bytes)} {chunks : List Bytes} {s s' : Conversation}

theorem Talk.handle (hinput : Maskable input) {answer : Answer}
    (h : Talk ip input asked answers chunks s)
    (hstep : converse capacity clientId ip s
      (ConversationEvent.handle answer) = some s') :
    Talk ip input asked answers chunks s' := by
  simp only [converse] at hstep
  split at hstep
  case isFalse => cases hstep
  case isTrue hhandles =>
    rcases Option.map_eq_some_iff.mp hstep with ⟨next, hslave, heq⟩
    rcases h with ⟨hcounted, hcommands, hmaskable, hplace⟩
    rcases hplace.of_busy (SlavePoint.busy_of_handles hhandles) with
      ⟨piece, output, got, inFlight, r, hchunks, hcalled⟩
    have horder := hcalled.order.step
      (isCommand_asked hinput hcalled.pieces hcalled.command)
      (by intro hmaster; cases hmaster) hslave
    rcases slave_cases hslave with ⟨shellfd, point, hmoves, hnext⟩
    have hended : r.ended = !point.busy := by
      rw [hcalled.ended, SlavePoint.busy_of_handles hhandles, hmoves.busy hhandles]
    rw [hnext] at heq horder
    rw [hchunks]
    cases heq
    refine ⟨hcounted, hcommands, hmaskable,
      Place.called piece output got inFlight r ?_⟩
    exact
      { hcalled with
        order := horder
        ended := hended
        first := fun _ => hcalled.first hhandles }

theorem Delivery.grow {output : Bytes} {got inFlight : List Bytes}
    {r : Response} (h : Delivery output got inFlight r) (hended : r.ended = false)
    (bytes : Bytes) :
    Delivery (output ++ bytes) got inFlight
      { r with pipe := r.pipe ++ bytes } where
  whole := by
    rw [← List.append_assoc, h.whole]
  chunks := h.chunks
  written := h.written
  stage := by
    rcases h.stage.network_of_sending hended with ⟨hreturned, hnetwork⟩
    exact Stage.sending hended hreturned hnetwork

theorem addOutput_append (outputs : List Bytes) (output bytes : Bytes) :
    addOutput (outputs ++ [output]) bytes = outputs ++ [output ++ bytes] := by
  rw [addOutput, List.dropLast_concat, List.getLast?_concat, Option.getD_some]

theorem Talk.write {bytes : Bytes} (hbytes : Maskable bytes)
    (h : Talk ip input asked answers chunks s)
    (hstep : converse capacity clientId ip s
      (ConversationEvent.write bytes) = some s') :
    Talk ip input asked answers chunks s' := by
  simp only [converse] at hstep
  split at hstep
  case isFalse => cases hstep
  case isTrue hcond =>
    rcases h with ⟨hcounted, hcommands, hmaskable, hplace⟩
    have hbusy := SlavePoint.busy_of_handles hcond.left
    rcases hplace.of_busy hbusy with
      ⟨piece, output, got, inFlight, r, hchunks, hcalled⟩
    have hended : r.ended = false := by
      rw [hcalled.ended, hbusy]
      rfl
    rw [hchunks]
    cases hstep
    refine ⟨hcounted, hcommands, hmaskable,
      Place.called piece (output ++ bytes) got inFlight
        { r with pipe := r.pipe ++ bytes } ?_⟩
    exact
      { pieces := hcalled.pieces
        command := hcalled.command
        order := hcalled.order
        pipe := hcalled.pipe
        outputs := by rw [hcalled.outputs, addOutput_append]
        asker := hcalled.asker
        requests := hcalled.requests
        response := by
          rw [hcalled.response]
          rfl
        delivery := hcalled.delivery.grow hended bytes
        maskable := hcalled.maskable.append hbytes
        ended := hcalled.ended
        returned := hcalled.returned
        first := hcalled.first }

theorem respond_of_behind {before : Bytes} {r next : Response} {e : ResponseEvent}
    (h : respond (r.behind before) e = some next) :
    exists r', respond r e = some r' ∧ next = r'.behind before := by
  rw [respond_behind] at h
  rcases Option.map_eq_some_iff.mp h with ⟨r', hstep, heq⟩
  exact ⟨r', hstep, heq.symm⟩

theorem respond_read_flags {r r' : Response} {size : Nat}
    (h : respond r (ResponseEvent.read size) = some r') :
    r'.ended = r.ended ∧ r'.returned = r.returned := by
  simp only [respond] at h
  split at h
  · cases h
    exact ⟨rfl, rfl⟩
  · cases h

theorem respond_finish_flags {r r' : Response} {behind : Bytes}
    (h : respond r (ResponseEvent.finish behind) = some r') :
    r'.ended = true ∧ r'.returned = r.returned := by
  simp only [respond] at h
  split at h
  · cases h
    exact ⟨rfl, rfl⟩
  · cases h

theorem respond_receive_flags {r r' : Response}
    (h : respond r ResponseEvent.receive = some r') :
    r'.ended = r.ended ∧ r'.pipe = r.pipe := by
  simp only [respond] at h
  split at h
  · cases h
    exact ⟨rfl, rfl⟩
  · cases h

theorem Talk.send {size : Nat} (h : Talk ip input asked answers chunks s)
    (hstep : converse capacity clientId ip s
      (ConversationEvent.send size) = some s') :
    exists chunk, chunk.length = size ∧
      Talk ip input asked answers (chunks ++ [chunk]) s' := by
  simp only [converse] at hstep
  split at hstep
  case h_1 flag hpoint =>
    rcases Option.map_eq_some_iff.mp hstep with ⟨next, hread, heq⟩
    rcases h with ⟨hcounted, hcommands, hmaskable, hplace⟩
    rcases hplace.of_busy (by rw [hpoint]; rfl) with
      ⟨piece, output, got, inFlight, r, hchunks, hcalled⟩
    rw [hcalled.response] at hread
    rcases respond_of_behind hread with ⟨r', hread', hnext⟩
    rcases hcalled.delivery.read hread' with ⟨chunk, hlength, hdelivery⟩
    rcases respond_read_flags hread' with ⟨hended, hreturned⟩
    refine ⟨chunk, hlength, ?_⟩
    rw [hchunks, List.append_assoc]
    cases heq
    refine ⟨hcounted, hcommands, hmaskable,
      Place.called piece output got (inFlight ++ [chunk]) r' ?_⟩
    exact
      { hcalled with
        response := hnext
        delivery := hdelivery
        ended := hended.trans hcalled.ended
        returned := hreturned.trans hcalled.returned
        first := by
          intro hhandles
          rw [hpoint] at hhandles
          cases hhandles }
  case h_2 => cases hstep

theorem Talk.finish (hinput : Maskable input) {behind : Bytes}
    (h : Talk ip input asked answers chunks s)
    (hstep : converse capacity clientId ip s
      (ConversationEvent.finish behind) = some s') :
    Talk ip input asked answers chunks s' := by
  simp only [converse] at hstep
  split at hstep
  case h_1 flag response next hpoint hfinish hslave =>
    rcases h with ⟨hcounted, hcommands, hmaskable, hplace⟩
    rcases hplace.of_busy (by rw [hpoint]; rfl) with
      ⟨piece, output, got, inFlight, r, hchunks, hcalled⟩
    rw [hcalled.response] at hfinish
    rcases respond_of_behind hfinish with ⟨r', hfinish', hresponse⟩
    rcases respond_finish_flags hfinish' with ⟨hended, hreturned⟩
    have horder := hcalled.order.step
      (isCommand_asked hinput hcalled.pieces hcalled.command)
      (by intro hmaster; cases hmaster) hslave
    rcases slave_cases hslave with ⟨shellfd, point, hmoves, hnext⟩
    have hidle : point.busy = false ∧ point.handles = false := by
      rw [hpoint] at hmoves
      cases hmoves with
      | again _ _ => exact ⟨rfl, rfl⟩
      | leave => exact ⟨rfl, rfl⟩
    rw [hnext] at hstep horder
    rw [hchunks]
    cases hstep
    refine ⟨hcounted, hcommands, hmaskable,
      Place.called piece output got inFlight r' ?_⟩
    exact
      { hcalled with
        order := horder
        response := hresponse
        delivery := hcalled.delivery.finish hfinish'
        ended := by rw [hended, hidle.left]; rfl
        returned := hreturned.trans hcalled.returned
        first := by
          intro hhandles
          rw [hidle.right] at hhandles
          cases hhandles }
  case h_2 => cases hstep

theorem Called.quit_of_ended {before piece output : Bytes}
    {got inFlight : List Bytes} {r : Response}
    (h : Called input asked answers before piece output got inFlight r s)
    (hended : s.session.point = SlavePoint.ended)
    (hcommands : s.session.commands = []) : getCommand piece = Command.quit := by
  rcases h.order.place with hreading | ⟨earlier, data, hcalls, hcall⟩
  · rw [hended] at hreading
    cases hreading
  · have horder := h.order.order
    rw [h.pipe, waiting, if_pos rfl, hcommands, List.append_nil, List.append_nil,
      hcalls, List.map_append] at horder
    have hlast := List.append_inj_right' horder rfl
    injection hlast with hpiece
    rw [hended] at hcall
    cases hcall with
    | ended hquit =>
        rw [← hquit, ← hpiece]
        exact getCommand_congr (cstr_cstr data)

theorem transcript_other (ip : Bytes) {piece : Bytes} (response : Bytes)
    (h : getCommand piece ≠ Command.findall) :
    transcript ip [piece] [response] = promptText ++ responseText ++ response := by
  rw [transcript, if_neg h, transcript, List.append_nil]
  rfl

theorem transcript_findall (ip : Bytes) {piece : Bytes}
    (h : getCommand piece = Command.findall) :
    transcript ip [piece] [] = promptText ++ foundText serverText ip := by
  rw [transcript, if_pos h, transcript, List.append_nil]

theorem Called.receive {output piece : Bytes} {got inFlight : List Bytes}
    {r : Response}
    (h : Called input asked answers (transcript ip asked (answers.map arrived))
      piece output got inFlight r s)
    (hcounted : answers.length = (handled asked).length)
    (hcommands : s.session.commands = []) (hmaskable : Maskable s.input)
    (hstep : converse capacity clientId ip s ConversationEvent.receive = some s') :
    exists asked' answers' chunks',
      answers'.flatten ++ chunks' = answers.flatten ++ (got ++ inFlight) ∧
        Talk ip input asked' answers' chunks' s' := by
  simp only [converse, h.asker] at hstep
  rcases Option.map_eq_some_iff.mp hstep with ⟨next, hreceive, heq⟩
  rw [h.response] at hreceive
  rcases respond_of_behind hreceive with ⟨r', hreceive', hnext⟩
  rcases h.delivery.receive h.maskable hreceive' with
    ⟨got', inFlight', hsame, hdelivery⟩
  rcases respond_receive_flags hreceive' with ⟨hended, hpipe⟩
  cases hreturned : r'.returned with
  | false =>
      -- the response goes on
      refine ⟨asked, answers, got' ++ inFlight', by rw [hsame], ?_⟩
      rw [← heq, Conversation.receive, hnext]
      refine ⟨hcounted, hcommands, hmaskable,
        Place.called piece output got' inFlight' r' ?_⟩
      exact
        { h with
          asker := if_pos hreturned
          response := rfl
          delivery := hdelivery
          ended := hended.trans h.ended
          returned := hreturned
          first := fun hhandles => hsame.trans (h.first hhandles) }
  | true =>
      -- the exchange is over
      have hcounted' : (answers ++ [got']).length =
          (handled (asked ++ [piece])).length := by
        rw [handled_append, handled_other h.command, List.length_append,
          List.length_append, hcounted]
        rfl
      have hmany : (answers.map arrived).length = (handled asked).length := by
        rw [List.length_map, hcounted]
      cases hdelivery.stage with
      | sending _ hreturned' _ =>
          rw [hreturned] at hreturned'
          cases hreturned'
      | ending behind _ _ hreturned' _ =>
          rw [hreturned] at hreturned'
          cases hreturned'
      | closed hended' hnone _ hinFlight hnetwork =>
          have hquiet : s.session.point.busy = false := by
            rw [hended', h.ended] at hended
            simpa using hended
          have houtput : output = got'.flatten := by
            rw [← hdelivery.whole, hnone, hinFlight, List.append_nil,
              List.append_nil]
          refine ⟨asked ++ [piece], answers ++ [got'], [], ?_, ?_⟩
          · rw [hinFlight, List.append_nil] at hsame
            rw [List.append_nil, List.flatten_append, List.flatten_singleton, hsame]
          · rw [← heq, Conversation.receive, hnext]
            refine ⟨hcounted', hcommands, hmaskable, ?_⟩
            refine Place.nowhere (by rw [h.pieces, List.append_assoc]; rfl) ?_ ?_
              h.requests hnetwork ?_
            · exact
                { order := by
                    rw [handled_append, handled_other h.command]
                    exact h.order
                  pipe := h.pipe
                  quiet := hquiet
                  outputs := by
                    rw [h.outputs, houtput, List.map_append]
                    rfl
                  printed := hnone }
            · by_cases hquit : getCommand piece = Command.quit
              · right
                show (if r'.returned = false then _ else _) = Asker.ended
                rw [hreturned, if_neg (by decide), if_pos hquit]
              · left
                constructor
                · show (if r'.returned = false then _ else _) = Asker.typing
                  rw [hreturned, if_neg (by decide), if_neg hquit]
                · show s.session.point = SlavePoint.reading
                  cases hpoint : s.session.point with
                  | reading => rfl
                  | ended => exact absurd (h.quit_of_ended hpoint hcommands) hquit
                  | _ =>
                      rw [hpoint] at hquiet
                      cases hquiet
            · rw [List.map_append, List.map_singleton,
                transcript_append ip hmany, transcript_other ip _ h.command]
              simp only [Response.behind, hdelivery.written, arrived,
                List.append_assoc]

theorem cstr_receiveBuf_server (data : Bytes) :
    cstr (receiveBuf (some (datagramOf (strcpy data serverText)))) =
      serverText := by
  have hmaskable : Maskable serverText := by decide
  have hcopy : strcpy data serverText =
      serverText ++ 0 :: data.drop (serverText.length + 1) := rfl
  rcases receiveBuf_string hmaskable (by decide)
    (data.drop (serverText.length + 1)) with ⟨rest, hrest⟩
  rw [hcopy, hrest]
  exact cstr_append_zero hmaskable.noNul rest

theorem Talk.receive (h : Talk ip input asked answers chunks s)
    (hstep : converse capacity clientId ip s ConversationEvent.receive = some s') :
    exists asked' answers' chunks',
      answers'.flatten ++ chunks' = answers.flatten ++ chunks ∧
        Talk ip input asked' answers' chunks' s' := by
  rcases h with ⟨hcounted, hcommands, hmaskable, hplace⟩
  have hnone : forall before, respond ((Response.start []).behind before)
      ResponseEvent.receive = none := fun _ => rfl
  cases hplace with
  | nowhere hpieces hrest hasker hrequests hnetwork hstdout =>
      rcases hasker with ⟨htyping, _⟩ | hended
      · simp only [converse, htyping] at hstep
        cases hstep
      · simp only [converse, hended] at hstep
        cases hstep
  | finding piece request hpieces hcommand harrives hrest hpoint hasker hway
      hstdout =>
      rcases hway with ⟨hrequests, hnetwork⟩ | ⟨hrequests, data, hnetwork⟩
      · simp only [converse, hasker, hnetwork] at hstep
        cases hstep
      · simp only [converse, hasker, hnetwork] at hstep
        cases hstep
        refine ⟨asked ++ [piece], answers, [], rfl, ?_⟩
        have hhandled : handled (asked ++ [piece]) = handled asked := by
          rw [handled_append, handled_findall hcommand, List.append_nil]
        have hmany : (answers.map arrived).length = (handled asked).length := by
          rw [List.length_map, hcounted]
        refine ⟨by rw [hhandled, hcounted], hcommands, hmaskable, ?_⟩
        refine Place.nowhere (by rw [hpieces, List.append_assoc]; rfl) ?_
          (Or.inl ⟨rfl, hpoint⟩) hrequests rfl ?_
        · exact ⟨by rw [hhandled]; exact hrest.order, hrest.pipe, hrest.quiet,
            hrest.outputs, hrest.printed⟩
        · have happend := transcript_append ip hmany piece []
          rw [List.append_nil, transcript_findall ip hcommand] at happend
          rw [happend, ← List.append_assoc, ← hstdout]
          simp only [Conversation.find, Conversation.print, foundText,
            cstr_receiveBuf_server]
          rfl
  | sent piece request hpieces hcommand harrives hrest hpoint hasker hrequests
      hresponse =>
      simp only [converse, hasker, hresponse, hnone] at hstep
      cases hstep
  | served piece hpieces hcommand horder hpipe houtputs hpoint hasker hrequests
      hresponse =>
      simp only [converse, hasker, hresponse, hnone] at hstep
      cases hstep
  | called piece output got inFlight r hcalled =>
      exact hcalled.receive hcounted hcommands hmaskable hstep

theorem InOrder.frame {commands : List Bytes} {session : Session}
    (h : InOrder commands session) (shellfd : Int) :
    InOrder commands { session with shellfd := shellfd } :=
  ⟨h.order, h.terminated, h.short, h.noNul, h.place⟩

theorem Place.frame {before : Bytes} (h : Place input asked answers before s chunks)
    (data : Bytes) (shellfd : Int) :
    Place input asked answers before
      { s with
        data := data
        session := { s.session with shellfd := shellfd } } chunks := by
  cases h with
  | nowhere hpieces hrest hasker hrequests hnetwork hstdout =>
      exact Place.nowhere hpieces
        ⟨hrest.order.frame shellfd, hrest.pipe, hrest.quiet, hrest.outputs,
          hrest.printed⟩ hasker hrequests hnetwork hstdout
  | finding piece request hpieces hcommand harrives hrest hpoint hasker hway
      hstdout =>
      exact Place.finding piece request hpieces hcommand harrives
        ⟨hrest.order.frame shellfd, hrest.pipe, hrest.quiet, hrest.outputs,
          hrest.printed⟩ hpoint hasker hway hstdout
  | sent piece request hpieces hcommand harrives hrest hpoint hasker hrequests
      hresponse =>
      exact Place.sent piece request hpieces hcommand harrives
        ⟨hrest.order.frame shellfd, hrest.pipe, hrest.quiet, hrest.outputs,
          hrest.printed⟩ hpoint hasker hrequests hresponse
  | served piece hpieces hcommand horder hpipe houtputs hpoint hasker hrequests
      hresponse =>
      exact Place.served piece hpieces hcommand (horder.frame shellfd) hpipe houtputs
        hpoint hasker hrequests hresponse
  | called piece output got inFlight r hcalled =>
      exact Place.called piece output got inFlight r
        { hcalled with order := hcalled.order.frame shellfd }

theorem Talk.frame (h : Talk ip input asked answers chunks s) (data : Bytes)
    (shellfd : Int) :
    Talk ip input asked answers chunks
      { s with
        data := data
        session := { s.session with shellfd := shellfd } } :=
  ⟨h.counted, h.commands, h.maskable, h.place.frame data shellfd⟩

end Busy

end Socket
end UnixPrograms
