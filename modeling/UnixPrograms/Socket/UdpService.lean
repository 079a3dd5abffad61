import UnixPrograms.Socket.UdpAnswers
import UnixPrograms.Socket.UdpSides

/-!
# The UDP server with all its clients

One master, and for each client its loop, its slave and the network between
them, in every interleaving.  The master is the one of `UdpMaster`, with its
rows, descriptors and pipes; what an iteration means to a client is read off
the pipe of the client's latest slave and the table.
-/

namespace UnixPrograms
namespace Socket

open Foundation

variable {capacity : Nat}

def idNumber (clientId : Bytes) : Int :=
  atoi (cstr clientId)

def requestEvent (request : Bytes) : Event where
  datagram := some request
  pipeOk := true
  forkOk := true
  writeOk := true

def mailed (before after : Master) (id : Int) : List Bytes :=
  match (after.host.latestSlave id).bind Slave.pipe with
  | none => []
  | some pipe => (after.host.writes pipe).drop (before.host.writes pipe).length

/-- The session of the client's latest slave, which the master may just have
forked. -/
def Session.follow (before after : Master) (id : Int) (session : Session) :
    Session :=
  let session :=
    if after.host.latestSlave id = before.host.latestSlave id then session
    else Session.start []
  { session with
    pipe := session.pipe ++ (mailed before after id).flatten
    rowFreed :=
      (after.host.latestSlave id).isSome && (findClient after id).isNone }

def Conversation.passed (before after : Master) (id : Int) (s : Conversation) :
    Conversation :=
  { s with
    data := after.data
    session := s.session.follow before after id }

/-- The conversation behind an iteration for its client, to which goes what the
master sends itself. -/
def Conversation.answered (before after : Master) (id : Int)
    (requests : List Bytes) (s : Conversation) : Conversation :=
  let s := s.passed before after id
  { s with
    requests := requests
    response :=
      { s.response with
        network :=
          s.response.network ++ after.host.sent.drop before.host.sent.length } }

structure Service (client : Type) where
  master : Master
  talks : client -> Conversation

inductive ServiceEvent (client : Type) where
  /-- A step of the client, of its slave or of the network between them. -/
  | own (who : client) (e : ConversationEvent)
  /-- The master serves the next request of the client. -/
  | serve (who : client)
deriving DecidableEq

def ConversationEvent.own : ConversationEvent -> Bool
  | ConversationEvent.serve => false
  | ConversationEvent.others _ => false
  | _ => true

section Model

variable {client : Type}

def Service.start (openFds firstPid : Nat) (inputs : client -> Bytes) :
    Service client where
  master := Master.start openFds firstPid
  talks := fun who => Conversation.start (inputs who)

variable [DecidableEq client]

def Service.serve (ids : client -> Bytes) (s : Service client) (who : client)
    (request : Bytes) (requests : List Bytes) : Service client :=
  let master := iteration s.master (requestEvent request)
  { master := master
    talks := fun other =>
      let talk := s.talks other
      let id := idNumber (ids other)
      if other = who then talk.answered s.master master id requests
      else talk.passed s.master master id }

def serviceStep (capacity : Nat) (ids : client -> Bytes) (ip : Bytes)
    (s : Service client) : ServiceEvent client -> Option (Service client)
  | ServiceEvent.own who e =>
      if e.own = true then
        (converse capacity (ids who) ip (s.talks who) e).map
          (fun talk => { s with talks := Function.update s.talks who talk })
      else
        none
  | ServiceEvent.serve who =>
      match (s.talks who).requests with
      | [] => none
      | request :: requests => some (s.serve ids who request requests)

end Model

/-!
## Rows of the table
-/

section Rows

variable {m : Master} {d : Directory Int Bytes} {id : Int} {pipe : Nat}

theorem findClient_of_box (ht : TableSound m) (hd : Refines m d)
    (hbox : d.box id = some pipe) :
    exists position, findClient m id = some position ∧
      position < m.clientsCount ∧ Holding m position pipe := by
  rcases (hd.box id pipe).mp hbox with ⟨i, hi, hid, hholding⟩
  cases hfind : findClient m id with
  | none => exact absurd hid (findClient_none hfind hi)
  | some position =>
      rcases findClient_some hfind with ⟨hposition, hfound⟩
      have hsame := ht.distinct _ _ hposition hi (hfound.trans hid.symm)
      rw [← hsame] at hholding
      exact ⟨position, rfl, hposition, hholding⟩

theorem findClient_none_iff (ht : TableSound m) (hd : Refines m d) (id : Int) :
    findClient m id = none <-> d.box id = none := by
  constructor
  · intro hfind
    cases hbox : d.box id with
    | none => rfl
    | some pipe =>
        rcases findClient_of_box ht hd hbox with ⟨position, hsome, _⟩
        rw [hfind] at hsome
        cases hsome
  · intro hbox
    cases hfind : findClient m id with
    | none => rfl
    | some position =>
        rcases findClient_some hfind with ⟨hposition, hid⟩
        rcases ht.rows position hposition with ⟨pipe, _, hholding, _⟩
        have hrow := hd.box_of_row hposition hholding
        rw [hid, hbox] at hrow
        cases hrow

theorem deliver_requestMail_box (d : Directory Int Bytes) (id : Int) (pipe : Nat)
    (request : Bytes) :
    (d.deliver id pipe (requestMail request)).box id =
      if getCommand request = Command.quit then none else d.box id := by
  unfold requestMail
  cases hcommand : getCommand request <;> simp [Directory.deliver]

theorem latestSlave_congr {host host' : Host} (h : host'.slaves = host.slaves)
    (id : Int) : host'.latestSlave id = host.latestSlave id := by
  unfold Host.latestSlave
  rw [h]

theorem iteration_latest {e : Event} (he : e.Succeeds) (ht : TableSound m)
    (hid : id ≠ e.clientId) :
    (iteration m e).host.latestSlave id = m.host.latestSlave id := by
  cases hfind : findClient (received m e) e.clientId with
  | some position =>
      rcases findClient_some hfind with ⟨hposition, _⟩
      rcases (tableSound_received ht e).rows position hposition with
        ⟨_, _, hholding, _⟩
      rw [iteration_found he hfind, latestSlave_congr (serve_slaves hholding)]
      rfl
  | none =>
      by_cases hfull : MAX_CLIENTS_COUNT ≤ m.clientsCount
      · rw [iteration_full hfind hfull]
        rfl
      · have hroom : (received m e).clientsCount < MAX_CLIENTS_COUNT :=
          Nat.not_le.mp hfull
        have hadmitted : Admitted (received m e)
            (enroll (received m e) e.clientId) e.clientId :=
          admitted e.clientId hroom
        have hslaves := serve_slaves hadmitted.holding_new
        rw [iteration_new he hfind hroom]
        exact (latestSlave_congr hslaves id).trans (hadmitted.latest_of_ne hid)

end Rows

/-!
## What a client sends
-/

def Asker.quits : Asker -> Bool
  | Asker.receiving command => command = Command.quit
  | Asker.ended => true
  | _ => false

/-- What the requests and the flag of a conversation say of its client: the
master has freed the row when the quit is no longer on its way. -/
structure Genuine (clientId ip input : Bytes) (s : Conversation) : Prop where
  talk : exists sizes, Talking ip input sizes s
  sender : forall request, request ∈ s.requests ->
    (requestEvent request).clientId = idNumber clientId
  quits : s.session.rowFreed = true <-> s.requests = [] ∧ s.asker.quits = true

/-- Of a datagram that `send_buf` makes of a header and a text, the master reads
the number in the header and the text. -/
theorem Event.reads_request {e : Event} {header text rest : Bytes}
    (hheader : Maskable header) (hlength : header.length = IDSZ)
    (htext : Maskable text) (hshort : text.length ≤ BUFSZ - IDSZ - 1)
    (h : e.datagram = some (datagramOf (header ++ text ++ 0 :: rest))) :
    e.clientId = atoi header ∧ e.text = text := by
  have hfits : (header ++ text).length ≤ BUFSZ - 1 := by
    rw [List.length_append, hlength]
    unfold BUFSZ IDSZ at *
    lia
  rcases receiveBuf_string (hheader.append htext) hfits rest with
    ⟨behind, hreceived⟩
  constructor
  · rw [Event.clientId, h, hreceived, List.append_assoc,
      strncpy_header hheader.noNul hlength]
  · rw [Event.text, h, hreceived, List.append_assoc, List.drop_left' hlength]
    exact cstr_append_zero htext.noNul behind

theorem clientId_of_getStr {clientId buffer input : Bytes} {typed : Typed}
    (hid : IsClientId clientId) (hinput : Maskable input)
    (h : getStr clientId buffer input = some typed) :
    (requestEvent (datagramOf typed.request)).clientId = idNumber clientId := by
  unfold getStr at h
  cases hread : fgets (BUFSZ - IDSZ) input with
  | none =>
      rw [hread] at h
      cases h
  | some pair =>
      rcases pair with ⟨read, rest⟩
      rw [hread] at h
      injection h with h
      rcases fgets_split hread with ⟨hsplit, hlength, _⟩
      have hpiece : Maskable (cstr read) := by
        apply hinput.of_subset
        rw [hsplit]
        exact List.Subset.trans (List.takeWhile_sublist _).subset
          (List.subset_append_left read rest)
      have hshort : (cstr read).length ≤ BUFSZ - IDSZ - 1 := by
        have hle :=
          (List.takeWhile_prefix (fun b => decide (b ≠ 0)) (l := read)).length_le
        exact Nat.le_trans hle hlength
      have hfits : (cstr clientId ++ cstr read).length ≤ BUFSZ - 1 := by
        rw [List.length_append, hid.length]
        unfold BUFSZ IDSZ at *
        lia
      have hrequest : typed.request = cstr clientId ++ cstr read ++
          0 :: buffer.drop ((cstr clientId ++ cstr read).length + 1) := by
        rw [← h]
        show snprintf buffer (cstr clientId ++ cstr (read ++ zeros _)) BUFSZ = _
        rw [cstr_append_zeros, snprintf, List.take_of_length_le hfits]
      exact (Event.reads_request (Maskable.of_digits hid.digits) hid.length
        hpiece hshort (congrArg (some ∘ datagramOf) hrequest)).left

section Client

variable {clientId ip input : Bytes} {s s' : Conversation}

theorem Genuine.start (clientId ip : Bytes) (h : Maskable input) :
    Genuine clientId ip input (Conversation.start input) where
  talk := ⟨[], [], [], [], rfl, Talk.start ip h⟩
  sender := by
    intro request hrequest
    cases hrequest
  quits := by
    constructor
    · intro hfreed
      cases hfreed
    · rintro ⟨_, hquits⟩
      cases hquits

theorem Talk.of_request {asked : List Bytes} {answers : List (List Bytes)}
    {chunks : List Bytes} {request : Bytes} {requests : List Bytes}
    (h : Talk ip input asked answers chunks s)
    (hrequests : s.requests = request :: requests) :
    requests = [] ∧
      (forall data, getCommand (separated request data) = Command.findall ->
        s.asker = Asker.finding) ∧
      forall data, getCommand (separated request data) ≠ Command.findall ->
        s.asker = Asker.receiving (getCommand (separated request data)) := by
  have hread : forall {piece request' : Bytes},
      (forall data, cstr (separated request' data) = piece) ->
        s.requests = [request'] -> requests = [] ∧
          forall data, getCommand (separated request data) = getCommand piece := by
    intro piece request' harrives hone
    rw [hrequests] at hone
    injection hone with hrequest hnone
    refine ⟨hnone, fun data => ?_⟩
    rw [hrequest]
    apply getCommand_congr
    rw [harrives, ← harrives data, cstr_cstr]
  cases h.place with
  | nowhere hpieces hrest hasker hnone =>
      rw [hrequests] at hnone
      cases hnone
  | finding piece request' hpieces hcommand harrives hrest hpoint hasker hway =>
      rcases hway with ⟨hone, _⟩ | ⟨hnone, _⟩
      · rcases hread harrives hone with ⟨hnone, hsame⟩
        refine ⟨hnone, fun _ _ => hasker, fun data hfind => ?_⟩
        rw [hsame, hcommand] at hfind
        exact absurd rfl hfind
      · rw [hrequests] at hnone
        cases hnone
  | sent piece request' hpieces hcommand harrives hrest hpoint hasker hone =>
      rcases hread harrives hone with ⟨hnone, hsame⟩
      refine ⟨hnone, fun data hfind => ?_, fun data _ => ?_⟩
      · rw [hsame] at hfind
        exact absurd hfind hcommand
      · rw [hsame]
        exact hasker
  | served piece hpieces hcommand horder hpipe houtputs hpoint hasker hnone =>
      rw [hrequests] at hnone
      cases hnone
  | called piece output got inFlight r hcalled =>
      have hnone := hcalled.requests
      rw [hrequests] at hnone
      cases hnone

structure Kept (e : ConversationEvent) (s s' : Conversation) : Prop where
  requests : e ≠ ConversationEvent.ask -> s'.requests = s.requests
  data : e.own = true -> s'.data = s.data
  row : s'.session.rowFreed = s.session.rowFreed
  start : s.session = Session.start [] -> s'.session = Session.start []

theorem Kept.of_session {e : ConversationEvent}
    (hrequests : e ≠ ConversationEvent.ask -> s'.requests = s.requests)
    (hdata : s'.data = s.data) (hsession : s'.session = s.session) :
    Kept e s s' where
  requests := hrequests
  data := fun _ => hdata
  row := by rw [hsession]
  start := by
    rw [hsession]
    exact id

theorem kept_of_converse {e : ConversationEvent}
    (hserve : e ≠ ConversationEvent.serve)
    (hstep : converse capacity clientId ip s e = some s') : Kept e s s' := by
  have hstart : s.session = Session.start [] ->
      s.session.point.handles = false ∧ s.session.pipe = [] := by
    intro hsession
    rw [hsession]
    exact ⟨rfl, rfl⟩
  cases e with
  | serve => exact absurd rfl hserve
  | ask =>
      simp only [converse] at hstep
      split at hstep
      · rcases Option.map_eq_some_iff.mp hstep with ⟨typed, _, heq⟩
        rw [← heq]
        by_cases hfind : typed.command = Command.findall
        · rw [ask_findall s hfind]
          exact Kept.of_session (fun h => absurd rfl h) rfl rfl
        · rw [ask_other s hfind]
          exact Kept.of_session (fun h => absurd rfl h) rfl rfl
      · cases hstep
  | receive =>
      simp only [converse] at hstep
      split at hstep
      · rcases Option.map_eq_some_iff.mp hstep with ⟨next, _, heq⟩
        rw [← heq]
        exact Kept.of_session (fun _ => rfl) rfl rfl
      · cases hstep
        exact Kept.of_session (fun _ => rfl) rfl rfl
      · cases hstep
  | others data =>
      cases hstep
      refine ⟨fun _ => rfl, ?_, rfl, id⟩
      intro hown
      cases hown
  | read =>
      rcases Option.map_eq_some_iff.mp hstep with ⟨next, hread, heq⟩
      rcases read_cases hread with ⟨_, hpipe, hnext⟩
      rw [← heq, hnext]
      exact ⟨fun _ => rfl, fun _ => rfl, rfl,
        fun h => absurd (hstart h).right hpipe⟩
  | handle answer =>
      simp only [converse] at hstep
      split at hstep
      · rename_i hhandles
        rcases Option.map_eq_some_iff.mp hstep with ⟨next, hslave, heq⟩
        rcases slave_cases hslave with ⟨shellfd, point, _, hnext⟩
        rw [← heq, hnext]
        refine ⟨fun _ => rfl, fun _ => rfl, rfl, fun h => ?_⟩
        rw [(hstart h).left] at hhandles
        cases hhandles
      · cases hstep
  | write bytes =>
      simp only [converse] at hstep
      split at hstep
      · cases hstep
        exact Kept.of_session (fun _ => rfl) rfl rfl
      · cases hstep
  | send size =>
      simp only [converse] at hstep
      split at hstep
      · rcases Option.map_eq_some_iff.mp hstep with ⟨next, _, heq⟩
        rw [← heq]
        exact Kept.of_session (fun _ => rfl) rfl rfl
      · cases hstep
  | finish behind =>
      simp only [converse] at hstep
      split at hstep
      · rename_i hpoint _ hslave
        rcases slave_cases hslave with ⟨shellfd, point, _, hnext⟩
        cases hstep
        rw [hnext]
        refine ⟨fun _ => rfl, fun _ => rfl, rfl, fun h => ?_⟩
        rw [h] at hpoint
        cases hpoint
      · cases hstep
  | sigchld =>
      cases hstep
      refine ⟨fun _ => rfl, fun _ => rfl, rfl, fun h => ?_⟩
      rw [h]
      rfl

theorem Genuine.ask (hid : IsClientId clientId) (h : Genuine clientId ip input s)
    (hstep : converse capacity clientId ip s ConversationEvent.ask = some s') :
    (forall request, request ∈ s'.requests ->
        (requestEvent request).clientId = idNumber clientId) ∧
      s'.requests ≠ [] ∧ s'.session.rowFreed = false := by
  rcases h.talk with ⟨sizes, asked, answers, chunks, _, htalk⟩
  simp only [converse] at hstep
  split at hstep
  case isFalse => cases hstep
  case isTrue htyping =>
    rcases Option.map_eq_some_iff.mp hstep with ⟨typed, htyped, heq⟩
    have hsender := clientId_of_getStr hid htalk.maskable htyped
    have hfreed : s.session.rowFreed = false := by
      by_contra hne
      have hquits := (h.quits.mp (by simpa using hne)).right
      rw [htyping] at hquits
      cases hquits
    have hsame : s'.requests = s.requests ++ [datagramOf typed.request] ∧
        s'.session = s.session := by
      rw [← heq]
      by_cases hfind : typed.command = Command.findall
      · rw [ask_findall s hfind]
        exact ⟨rfl, rfl⟩
      · rw [ask_other s hfind]
        exact ⟨rfl, rfl⟩
    rw [hsame.left, hsame.right]
    refine ⟨?_, by simp, hfreed⟩
    intro request hrequest
    rcases List.mem_append.mp hrequest with hmem | hmem
    · exact h.sender request hmem
    · rw [List.mem_singleton.mp hmem]
      exact hsender

theorem Genuine.serve (h : Genuine clientId ip input s)
    (hstep : converse capacity clientId ip s ConversationEvent.serve = some s') :
    s'.requests = [] ∧ (s'.session.rowFreed = true <-> s'.asker.quits = true) := by
  rcases h.talk with ⟨sizes, asked, answers, chunks, _, htalk⟩
  simp only [converse] at hstep
  split at hstep
  case h_1 => cases hstep
  case h_2 request requests hrequests =>
    rcases htalk.of_request hrequests with ⟨hnone, hfinding, hasker⟩
    have hfreed : s.session.rowFreed = false := by
      by_contra hne
      have hempty := (h.quits.mp (by simpa using hne)).left
      rw [hrequests] at hempty
      cases hempty
    cases hstep
    by_cases hfind : getCommand (separated request s.data) = Command.findall
    · rw [serve_findall requests hfind]
      refine ⟨hnone, ?_⟩
      show s.session.rowFreed = true <-> s.asker.quits = true
      rw [hfreed, hfinding s.data hfind]
      exact Iff.rfl
    · rw [serve_other requests hfind, serve_of_written [] hfind]
      refine ⟨hnone, ?_⟩
      show (s.session.rowFreed || _) = true <-> s.asker.quits = true
      rw [hfreed, hasker s.data hfind, Bool.false_or]
      exact Iff.rfl

theorem converse_quits {e : ConversationEvent} (hask : e ≠ ConversationEvent.ask)
    (hstep : converse capacity clientId ip s e = some s') :
    s'.asker.quits = s.asker.quits := by
  by_cases hreceive : e = ConversationEvent.receive
  · rw [hreceive] at hstep
    simp only [converse] at hstep
    split at hstep
    case h_1 command hasker =>
      rcases Option.map_eq_some_iff.mp hstep with ⟨next, _, heq⟩
      rw [← heq, hasker]
      by_cases hquit : command = Command.quit
      · cases hreturned : next.returned <;>
          simp [Conversation.receive, Asker.quits, hreturned, hquit]
      · cases hreturned : next.returned <;>
          simp [Conversation.receive, Asker.quits, hreturned, hquit]
    case h_2 datagram network hasker hnetwork =>
      cases hstep
      rw [hasker]
      rfl
    case h_3 => cases hstep
  · rw [(converse_keeps_client hask hreceive hstep).left]

theorem Genuine.step {e : ConversationEvent} (hid : IsClientId clientId)
    (hinput : Maskable input) (h : Genuine clientId ip input s)
    (hwrites : WritesText e) (hstep : converse capacity clientId ip s e = some s') :
    Genuine clientId ip input s' := by
  rcases h.talk with ⟨sizes, htalking⟩
  have htalk := htalking.step hid hinput hwrites hstep
  by_cases hask : e = ConversationEvent.ask
  · rw [hask] at hstep
    rcases h.ask hid hstep with ⟨hsender, hsome, hfreed⟩
    refine ⟨⟨_, htalk⟩, hsender, ?_⟩
    rw [hfreed]
    simp [hsome]
  · by_cases hserve : e = ConversationEvent.serve
    · rw [hserve] at hstep
      rcases h.serve hstep with ⟨hnone, hquits⟩
      refine ⟨⟨_, htalk⟩, ?_, ?_⟩
      · intro request hrequest
        rw [hnone] at hrequest
        cases hrequest
      · rw [hquits, hnone]
        simp
    · have hkept := kept_of_converse hserve hstep
      refine ⟨⟨_, htalk⟩, ?_, ?_⟩
      · rw [hkept.requests hask]
        exact h.sender
      · rw [hkept.row, hkept.requests hask, converse_quits hask hstep]
        exact h.quits

end Client

/-!
## What the master does for a client

A client is one that the master has not met, one with a row, or one whose row has
been freed.  In each case the iteration for its request is the step of its own
conversation.
-/

/-- A client that the master has not met, one with a row, and one whose row has
been freed. -/
inductive Stands (m : Master) (d : Directory Int Bytes) (id : Int)
    (session : Session) : Prop where
  | unknown (hbox : d.box id = none) (hslave : m.host.latestSlave id = none)
      (hsession : session = Session.start [])
  | registered (pipe : Nat) (slave : Slave) (hbox : d.box id = some pipe)
      (hslave : m.host.latestSlave id = some slave)
      (hpipe : slave.pipe = some pipe) (hrow : session.rowFreed = false)
  | gone (pipe : Nat) (slave : Slave) (hbox : d.box id = none)
      (hslave : m.host.latestSlave id = some slave)
      (hpipe : slave.pipe = some pipe) (hleft : d.Left pipe)
      (hrow : session.rowFreed = true)

section Follow

variable {m m' : Master} {d d' : Directory Int Bytes} {id : Int} {pipe : Nat}
  {slave : Slave} {session : Session}

theorem Stands.congr {session' : Session} (h : Stands m d id session)
    (hrow : session'.rowFreed = session.rowFreed)
    (hstart : session = Session.start [] -> session' = Session.start []) :
    Stands m d id session' := by
  cases h with
  | unknown hbox hslave hsession =>
      exact Stands.unknown hbox hslave (hstart hsession)
  | registered pipe slave hbox hslave hpipe hfreed =>
      exact Stands.registered pipe slave hbox hslave hpipe (hrow.trans hfreed)
  | gone pipe slave hbox hslave hpipe hleft hfreed =>
      exact Stands.gone pipe slave hbox hslave hpipe hleft (hrow.trans hfreed)

theorem mailed_of_slave (hslave : m'.host.latestSlave id = some slave)
    (hpipe : slave.pipe = some pipe) {text : List Bytes}
    (hwrites : m'.host.writes pipe = m.host.writes pipe ++ text) :
    mailed m m' id = text := by
  rw [mailed, hslave, Option.bind_some, hpipe]
  show (m'.host.writes pipe).drop (m.host.writes pipe).length = text
  rw [hwrites, List.drop_left]

theorem follow_of_slave (session : Session)
    (hslave : m'.host.latestSlave id = some slave)
    (hpipe : slave.pipe = some pipe)
    (hsame : m'.host.latestSlave id = m.host.latestSlave id ∨
      session = Session.start []) {text : List Bytes}
    (hwrites : m'.host.writes pipe = m.host.writes pipe ++ text) :
    session.follow m m' id =
      { session with
        pipe := session.pipe ++ text.flatten
        rowFreed := (findClient m' id).isNone } := by
  have hstays : (if m'.host.latestSlave id = m.host.latestSlave id then session
      else Session.start []) = session := by
    rcases hsame with hsame | hstart
    · rw [if_pos hsame]
    · rw [hstart, ite_self]
  rw [Session.follow, hstays, mailed_of_slave hslave hpipe hwrites, hslave]
  rfl

theorem Stands.follow (hrefines : Refines m d) (ht' : TableSound m')
    (hrefines' : Refines m' d')
    (hlatest : m'.host.latestSlave id = m.host.latestSlave id)
    (hbox : d'.box id = d.box id)
    (hkept : forall pipe, d.box id = some pipe ∨ d.Left pipe ->
      d'.received pipe = d.received pipe)
    (hleft : forall pipe, d.Left pipe -> d'.Left pipe)
    (h : Stands m d id session) :
    session.follow m m' id = session ∧ Stands m' d' id session := by
  have hwrites : forall pipe, d.box id = some pipe ∨ d.Left pipe ->
      m'.host.writes pipe = m.host.writes pipe ++ [] := by
    intro pipe hpipe
    rw [List.append_nil, ← hrefines'.received, ← hrefines.received,
      hkept pipe hpipe]
  have hrow := findClient_none_iff ht' hrefines' id
  cases h with
  | unknown hnone hslave hsession =>
      constructor
      · rw [Session.follow, mailed, if_pos hlatest, hlatest, hslave, hsession]
        rfl
      · exact Stands.unknown (hbox.trans hnone) (hlatest.trans hslave) hsession
  | registered pipe slave hsome hslave hpipe hfreed =>
      constructor
      · rw [follow_of_slave session (hlatest.trans hslave) hpipe (Or.inl hlatest)
          (hwrites pipe (Or.inl hsome))]
        have hfound : (findClient m' id).isNone = false := by
          cases hfind : findClient m' id with
          | none =>
              have hnone := hrow.mp hfind
              rw [hbox, hsome] at hnone
              cases hnone
          | some position => rfl
        rw [hfound, ← hfreed, List.flatten_nil, List.append_nil]
      · exact Stands.registered pipe slave (hbox.trans hsome)
          (hlatest.trans hslave) hpipe hfreed
  | gone pipe slave hnone hslave hpipe hgone hfreed =>
      constructor
      · rw [follow_of_slave session (hlatest.trans hslave) hpipe (Or.inl hlatest)
          (hwrites pipe (Or.inr hgone)), hrow.mpr (hbox.trans hnone),
          List.flatten_nil, List.append_nil, Option.isNone_none, ← hfreed]
      · exact Stands.gone pipe slave (hbox.trans hnone) (hlatest.trans hslave)
          hpipe (hleft pipe hgone) hfreed

theorem Stands.deliver {request : Bytes} (hs : d.Sound)
    (hbox : d.box id = some pipe) (hslave : m'.host.latestSlave id = some slave)
    (hpipe : slave.pipe = some pipe)
    (hrow : session.rowFreed = decide (getCommand request = Command.quit)) :
    Stands m' (d.deliver id pipe (requestMail request)) id session := by
  have hnext := deliver_requestMail_box d id pipe request
  by_cases hquit : getCommand request = Command.quit
  · have hlast : requestMail request = Mail.last request := by
      unfold requestMail
      rw [hquit]
    rw [if_pos hquit] at hnext
    refine Stands.gone pipe slave hnext hslave hpipe ?_ ?_
    · rw [hlast]
      exact hs.left hbox request
    · rw [hrow, decide_eq_true hquit]
  · rw [if_neg hquit, hbox] at hnext
    refine Stands.registered pipe slave hnext hslave hpipe ?_
    rw [hrow, decide_eq_false hquit]

theorem answered_of_row {m₁ : Master} {position : Nat} {request : Bytes}
    {s : Conversation} (hdata : m₁.data = separated request s.data)
    (hholding : Holding m₁ position pipe) (hopen : pipe < m₁.host.pipes.length)
    (hwrites : m₁.host.writes pipe = m.host.writes pipe)
    (hsent : m₁.host.sent = m.host.sent)
    (hslave : m₁.host.latestSlave id = some slave)
    (hpipe : slave.pipe = some pipe)
    (hsame : m₁.host.latestSlave id = m.host.latestSlave id ∨
      s.session = Session.start [])
    (hnone : s.session.commands = []) (hfreed : s.session.rowFreed = false)
    (hrow : findClient (serve true m₁ position) id = none <->
      getCommand m₁.data = Command.quit) (requests : List Bytes) :
    s.answered m (serve true m₁ position) id requests =
        s.serve request requests ∧
      (s.serve request requests).session.rowFreed =
        decide (getCommand m₁.data = Command.quit) := by
  rcases serve_of_row hdata hholding hopen hnone requests with
    ⟨text, answer, htext, hanswer, hserve⟩
  have hlatest : (serve true m₁ position).host.latestSlave id =
      m₁.host.latestSlave id := latestSlave_congr (serve_slaves hholding) id
  have hfollow := follow_of_slave (m := m) s.session
    (hlatest.trans hslave) hpipe (by rw [hlatest]; exact hsame)
    (by rw [htext, hwrites])
  have hisNone : (findClient (serve true m₁ position) id).isNone =
      decide (getCommand m₁.data = Command.quit) := by
    rw [Bool.eq_iff_iff, Option.isNone_iff_eq_none, hrow, decide_eq_true_iff]
  constructor
  · rw [hserve]
    simp only [Conversation.answered, Conversation.passed, hfollow, hisNone, hanswer,
      hsent, List.drop_left, hfreed, Bool.false_or]
  · rw [hserve, hfreed]
    exact Bool.false_or _

theorem enroll_sent (hroom : m.clientsCount < MAX_CLIENTS_COUNT) (client : Int) :
    (enroll m client).host.sent = m.host.sent := by
  unfold enroll
  rw [addClient_room client hroom]
  rfl

/-- The iteration is the step of the client's conversation, and the client has
a row behind it, or has given it up. -/
def Serves (m : Master) (d : Directory Int Bytes) (id : Int) (s : Conversation)
    (request : Bytes) (requests : List Bytes) : Prop :=
  s.answered m (iteration m (requestEvent request)) id requests =
      s.serve request requests ∧
    Stands (iteration m (requestEvent request))
      (d.step MAX_CLIENTS_COUNT (requestEvent request).message) id
      (s.serve request requests).session

theorem Serves.of_row {request : Bytes} {s : Conversation} {m₁ : Master}
    {d₁ : Directory Int Bytes} {position : Nat} (ht : TableSound m)
    (hd : Refines m d) (hs : d.Sound) (hdata : s.data = m.data)
    (hiteration : iteration m (requestEvent request) = serve true m₁ position)
    (hstep : d.step MAX_CLIENTS_COUNT (requestEvent request).message =
      d₁.deliver id pipe (requestMail (requestEvent request).text))
    (hread : m₁.data = (received m (requestEvent request)).data)
    (hbox : d₁.box id = some pipe) (hs₁ : d₁.Sound)
    (hholding : Holding m₁ position pipe) (hopen : pipe < m₁.host.pipes.length)
    (hwrites : m₁.host.writes pipe = m.host.writes pipe)
    (hsent : m₁.host.sent = m.host.sent)
    (hslave : m₁.host.latestSlave id = some slave)
    (hpipe : slave.pipe = some pipe)
    (hsame : m₁.host.latestSlave id = m.host.latestSlave id ∨
      s.session = Session.start [])
    (hnone : s.session.commands = []) (hfreed : s.session.rowFreed = false)
    (requests : List Bytes) : Serves m d id s request requests := by
  have htext : getCommand (requestEvent request).text = getCommand m₁.data := by
    apply getCommand_congr
    rw [hread, ← cstr_received m, cstr_cstr]
  have hseparated : m₁.data = separated request s.data := by
    rw [hread, hdata]
    rfl
  rcases refines_iteration (e := requestEvent request) ⟨rfl, rfl, rfl, rfl⟩ ht hd hs
    with ⟨ht', hd'⟩
  have hrow := findClient_none_iff ht' hd' id
  rw [hiteration, hstep, deliver_requestMail_box, hbox, htext] at hrow
  have hquit : findClient (serve true m₁ position) id = none <->
      getCommand m₁.data = Command.quit := by
    rw [hrow]
    simp
  rcases answered_of_row hseparated hholding hopen hwrites hsent hslave hpipe hsame
    hnone hfreed hquit requests with ⟨hserve, hfreed'⟩
  unfold Serves
  rw [hiteration, hstep]
  refine ⟨hserve, Stands.deliver hs₁ hbox ?_ hpipe (by rw [htext, hfreed'])⟩
  exact (latestSlave_congr (serve_slaves hholding) id).trans hslave

theorem Stands.serves {request : Bytes} {s : Conversation} (ht : TableSound m)
    (hd : Refines m d) (hs : d.Sound)
    (hid : (requestEvent request).clientId = id)
    (hroom : d.box id = none -> m.clientsCount < MAX_CLIENTS_COUNT)
    (hdata : s.data = m.data) (hnone : s.session.commands = [])
    (hfreed : s.session.rowFreed = false) (h : Stands m d id s.session)
    (requests : List Bytes) : Serves m d id s request requests := by
  have he : (requestEvent request).Succeeds := ⟨rfl, rfl, rfl, rfl⟩
  have ht₀ := tableSound_received ht (requestEvent request)
  have hd₀ := refines_received hd (requestEvent request)
  have hmessage : (requestEvent request).message =
      (id, requestMail (requestEvent request).text) := by
    rw [Event.message, hid]
  cases h with
  | gone pipe slave hbox hslave hpipe hleft hgone =>
      rw [hfreed] at hgone
      cases hgone
  | registered pipe slave hbox hslave hpipe _ =>
      rcases findClient_of_box ht₀ hd₀ hbox with ⟨position, hfind, _, hholding⟩
      have hopen : pipe < m.host.pipes.length := hd.next ▸ hs.known _ _ hbox
      exact Serves.of_row ht hd hs hdata
        (iteration_found he (by rw [hid]; exact hfind))
        (by rw [hmessage, Directory.step_of_some _ hbox]) rfl hbox hs hholding
        hopen rfl rfl hslave hpipe (Or.inl rfl) hnone hfreed requests
  | unknown hbox hslave hsession =>
      have hfind : findClient (received m (requestEvent request)) id = none :=
        (findClient_none_iff ht₀ hd₀ id).mpr hbox
      have hroom' := hroom hbox
      have hiteration := iteration_new he (by rw [hid]; exact hfind) hroom'
      rw [hid] at hiteration
      have hadmitted : Admitted (received m (requestEvent request))
          (enroll (received m (requestEvent request)) id) id :=
        admitted id hroom'
      rcases hadmitted.latest_new with ⟨slave, hlatest, hpipe, _⟩
      have hnext : d.next = m.host.pipes.length := hd.next
      have hpipes : (enroll (received m (requestEvent request)) id).host.pipes =
          m.host.pipes ++ [[]] := hadmitted.pipes
      refine Serves.of_row ht hd hs hdata hiteration
        (by rw [hmessage, Directory.step_of_room hbox (by rw [hd.size]; lia)])
        hadmitted.data (Directory.enter_box_self d id) (hs.enter id)
        (hnext ▸ hadmitted.holding_new) ?_ ?_
        (enroll_sent (m := received m (requestEvent request)) hroom' id) hlatest
        (hnext ▸ hpipe) (Or.inr hsession) hnone hfreed requests
      · rw [hpipes, hnext]
        simp
      · exact writes_append m.host _ hpipes d.next

end Follow

end Socket
end UnixPrograms
