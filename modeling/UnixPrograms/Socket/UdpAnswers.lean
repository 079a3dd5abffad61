import UnixPrograms.Socket.UdpConversation

/-!
# What the client gets for its requests

Runs of the conversation: each request is handled once, its response is the
output of its own call of `handler`, and as long as nobody disturbs it the
conversation goes on until the client has quit or has nothing more to type.
-/

namespace UnixPrograms
namespace Socket

open Foundation

variable {capacity : Nat}

/-!
## Every interleaving

The exchanges that are over are kept with the sizes of their chunks.  A response
has arrived whole exactly when none of its chunks filled the buffer.
-/

/-- What `handler` writes has neither zeros nor the mask in it. -/
def WritesText : ConversationEvent -> Prop
  | ConversationEvent.write bytes => Maskable bytes
  | _ => True

instance (e : ConversationEvent) : Decidable (WritesText e) :=
  match e with
  | ConversationEvent.write bytes => inferInstanceAs (Decidable (Maskable bytes))
  | ConversationEvent.ask => isTrue trivial
  | ConversationEvent.receive => isTrue trivial
  | ConversationEvent.serve => isTrue trivial
  | ConversationEvent.others _ => isTrue trivial
  | ConversationEvent.read => isTrue trivial
  | ConversationEvent.handle _ => isTrue trivial
  | ConversationEvent.send _ => isTrue trivial
  | ConversationEvent.finish _ => isTrue trivial
  | ConversationEvent.sigchld => isTrue trivial

def Talking (ip input : Bytes) (sizes : List Nat) (s : Conversation) : Prop :=
  exists asked answers chunks,
    (answers.flatten ++ chunks).map List.length = sizes ∧
      Talk ip input asked answers chunks s

section Runs

variable {clientId ip input : Bytes} {asked : List Bytes}
  {answers : List (List Bytes)} {chunks : List Bytes} {s s' : Conversation}

theorem Talk.talking {asked' : List Bytes} {answers' : List (List Bytes)}
    {chunks' : List Bytes}
    (hsame : answers'.flatten ++ chunks' = answers.flatten ++ chunks)
    (h : Talk ip input asked' answers' chunks' s') :
    Talking ip input (((answers.flatten ++ chunks).map List.length) ++ []) s' :=
  ⟨asked', answers', chunks', by rw [hsame, List.append_nil], h⟩

theorem Talking.step (hid : IsClientId clientId) (hinput : Maskable input)
    {sizes : List Nat} {e : ConversationEvent} (h : Talking ip input sizes s)
    (hwrites : WritesText e) (hstep : converse capacity clientId ip s e = some s') :
    Talking ip input (sizes ++ (sentSize e).toList) s' := by
  rcases h with ⟨asked, answers, chunks, hsizes, htalk⟩
  rw [← hsizes]
  cases e with
  | ask => exact (htalk.ask hid hstep).talking rfl
  | receive =>
      rcases htalk.receive hstep with ⟨asked', answers', chunks', hsame, htalk'⟩
      exact htalk'.talking hsame
  | serve => exact (htalk.serve hinput hstep).talking rfl
  | others data =>
      cases hstep
      exact (htalk.frame data s.session.shellfd).talking rfl
  | read => exact (htalk.read hinput hstep).talking rfl
  | handle answer => exact (htalk.handle hinput hstep).talking rfl
  | write bytes => exact (htalk.write hwrites hstep).talking rfl
  | send size =>
      rcases htalk.send hstep with ⟨chunk, hlength, htalk'⟩
      refine ⟨asked, answers, chunks ++ [chunk], ?_, htalk'⟩
      rw [← List.append_assoc, List.map_append, List.map_singleton, hlength]
      rfl
  | finish behind => exact (htalk.finish hinput hstep).talking rfl
  | sigchld =>
      cases hstep
      exact (htalk.frame s.data (sigchldSlave s.session.shellfd)).talking rfl

theorem Talking.run {events : List ConversationEvent}
    (hid : IsClientId clientId) (hinput : Maskable input)
    (hwrites : forall e, e ∈ events -> WritesText e)
    (hrun : run (converse capacity clientId ip) (Conversation.start input)
      events = some s) :
    Talking ip input (events.filterMap sentSize) s := by
  have htalking := run_emits (Talking ip input)
    (fun _ _ _ _ hs hguard hstep => hs.step hid hinput hguard hstep)
    ⟨[], [], [], rfl, Talk.start ip hinput⟩ (allSteps_of_mem hwrites _) hrun
  rw [emitted_eq_filterMap sentSize hrun] at htalking
  exact htalking

theorem Talk.calls (h : Talk ip input asked answers chunks s) :
    s.session.calls.map cstr <+: handled (pieces input) := by
  have hstart : forall commands, InOrder commands s.session ->
      s.session.calls.map cstr <+: commands := by
    intro commands horder
    refine ⟨waiting s.session.pipe ++ s.session.commands, ?_⟩
    rw [← List.append_assoc]
    exact horder.order
  have hearlier : forall later, pieces input = asked ++ later ->
      handled asked <+: handled (pieces input) := by
    intro later hpieces
    rw [hpieces, handled_append]
    exact List.prefix_append _ _
  have hnext : forall piece later, pieces input = asked ++ piece :: later ->
      getCommand piece ≠ Command.findall ->
      handled asked ++ [piece] <+: handled (pieces input) := by
    intro piece later hpieces hcommand
    refine ⟨handled later, ?_⟩
    rw [hpieces, handled_append, handled_cons_other later hcommand,
      List.append_assoc]
    rfl
  cases h.place with
  | nowhere hpieces hrest =>
      exact (hstart _ hrest.order).trans (hearlier _ hpieces)
  | finding piece request hpieces hcommand harrives hrest =>
      exact (hstart _ hrest.order).trans (hearlier _ hpieces)
  | sent piece request hpieces hcommand harrives hrest =>
      exact (hstart _ hrest.order).trans (hearlier _ hpieces)
  | served piece hpieces hcommand horder =>
      exact (hstart _ horder).trans (hnext piece _ hpieces hcommand)
  | called piece output got inFlight r hcalled =>
      exact (hstart _ hcalled.order).trans
        (hnext piece _ hcalled.pieces hcalled.command)

theorem Talk.between (h : Talk ip input asked answers chunks s)
    (hasker : s.asker = Asker.typing ∨ s.asker = Asker.ended) :
    chunks = [] ∧ pieces input = asked ++ pieces s.input ∧
      AtRest asked answers s ∧ s.requests = [] ∧ s.response.network = [] ∧
        s.response.stdout = transcript ip asked (answers.map arrived) := by
  have hreceiving : forall command, s.asker ≠ Asker.receiving command := by
    intro command heq
    rw [heq] at hasker
    rcases hasker with hasker | hasker
    · cases hasker
    · cases hasker
  cases h.place with
  | nowhere hpieces hrest _ hrequests hnetwork hstdout =>
      exact ⟨rfl, hpieces, hrest, hrequests, hnetwork, hstdout⟩
  | finding piece request hpieces hcommand harrives hrest hpoint hfinding =>
      rw [hfinding] at hasker
      rcases hasker with hasker | hasker
      · cases hasker
      · cases hasker
  | sent piece request hpieces hcommand harrives hrest hpoint hasker' =>
      exact absurd hasker' (hreceiving _)
  | served piece hpieces hcommand horder hpipe houtputs hpoint hasker' =>
      exact absurd hasker' (hreceiving _)
  | called piece output got inFlight r hcalled =>
      exact absurd hcalled.asker (hreceiving _)

theorem flatten_map_arrived (answers : List (List Bytes)) :
    (answers.map arrived).flatten = arrived answers.flatten := by
  induction answers with
  | nil => rfl
  | cons chunks answers ih =>
      rw [List.map_cons, List.flatten_cons, ih, List.flatten_cons, arrived, arrived,
        arrived, List.map_append, List.flatten_append]

theorem transcript_arrived_iff (hcounted : answers.length = (handled asked).length) :
    transcript ip asked (answers.map arrived) =
        transcript ip asked (answers.map List.flatten) <->
      forall chunk, chunk ∈ answers.flatten -> chunk.length ≤ BUFSZ - 1 := by
  constructor
  · intro h
    have harrived : (answers.map arrived).length = (handled asked).length := by
      rw [List.length_map, hcounted]
    have hwritten : (answers.map List.flatten).length = (handled asked).length := by
      rw [List.length_map, hcounted]
    have hlength := congrArg List.length h
    rw [transcript_length ip harrived, transcript_length ip hwritten,
      flatten_map_arrived, ← List.flatten_flatten] at hlength
    exact (flatten_take_eq_iff _ _).mp
      (flatten_take_eq_of_length (Nat.add_left_cancel hlength))
  · intro h
    have hsame : answers.map arrived = answers.map List.flatten := by
      apply List.map_congr_left
      intro chunks hchunks
      apply (flatten_take_eq_iff _ _).mpr
      intro chunk hchunk
      exact h chunk (List.mem_flatten.mpr ⟨chunks, hchunks, hchunk⟩)
    rw [hsame]

theorem send_size_le {size : Nat}
    (hstep : converse capacity clientId ip s
      (ConversationEvent.send size) = some s') :
    size ≤ BUFSZ := by
  simp only [converse] at hstep
  split at hstep
  · rcases Option.map_eq_some_iff.mp hstep with ⟨next, hread, _⟩
    simp only [respond] at hread
    split at hread
    · rename_i hguard
      exact hguard.right.right.left
    · cases hread
  · cases hstep

theorem mem_sizes {events : List ConversationEvent} {size : Nat} :
    size ∈ events.filterMap sentSize <-> ConversationEvent.send size ∈ events := by
  rw [List.mem_filterMap]
  constructor
  · rintro ⟨e, hmem, he⟩
    cases e with
    | send size' =>
        injection he with he
        rw [← he]
        exact hmem
    | _ => cases he
  · intro h
    exact ⟨ConversationEvent.send size, h, rfl⟩

theorem Talking.whole {sizes : List Nat} (h : Talking ip input sizes s)
    (hsizes : forall size, size ∈ sizes -> size ≤ BUFSZ) :
    s.session.calls.map cstr <+: handled (pieces input) ∧
      (s.asker = Asker.typing ∨ s.asker = Asker.ended ->
        exists asked, pieces input = asked ++ pieces s.input ∧
          s.session.calls.map cstr = handled asked ∧
          s.outputs.length = s.session.calls.length ∧
          (s.response.stdout = transcript ip asked s.outputs <->
            forall size, size ∈ sizes -> size ≠ BUFSZ)) := by
  rcases h with ⟨asked, answers, chunks, hall, htalk⟩
  refine ⟨htalk.calls, fun hasker => ?_⟩
  rcases htalk.between hasker with ⟨hchunks, hpieces, hrest, _, _, hstdout⟩
  have hcalls : s.session.calls.map cstr = handled asked := by
    have horder := hrest.order.order
    rw [hrest.pipe, waiting, if_pos rfl, htalk.commands, List.append_nil,
      List.append_nil] at horder
    exact horder
  refine ⟨asked, hpieces, hcalls, ?_, ?_⟩
  · rw [hrest.outputs, List.length_map, htalk.counted, ← hcalls, List.length_map]
  · rw [hstdout, hrest.outputs, transcript_arrived_iff htalk.counted]
    rw [hchunks, List.append_nil] at hall
    rw [← hall] at hsizes ⊢
    constructor
    · intro h size hsize
      rcases List.mem_map.mp hsize with ⟨chunk, hchunk, hlength⟩
      have hle := h chunk hchunk
      simp only [BUFSZ] at hle ⊢
      lia
    · intro h chunk hchunk
      have hsize := List.mem_map_of_mem (f := List.length) hchunk
      have hne := h chunk.length hsize
      have hle := hsizes chunk.length hsize
      simp only [BUFSZ] at hne hle ⊢
      lia

end Runs

def threeRequests : Bytes :=
  FINDALL ++ [10] ++ LS ++ [10] ++ QUIT ++ [10]

def threeAnswers : List ConversationEvent :=
  [ConversationEvent.ask, ConversationEvent.serve, ConversationEvent.receive,
    ConversationEvent.ask, ConversationEvent.serve, ConversationEvent.read,
    ConversationEvent.handle Answer.done,
    ConversationEvent.write (text ['a', '\n']),
    ConversationEvent.others (text ['c', 'd', '\n']),
    ConversationEvent.handle Answer.done, ConversationEvent.send 1,
    ConversationEvent.receive, ConversationEvent.send 1,
    ConversationEvent.finish [7], ConversationEvent.receive,
    ConversationEvent.receive, ConversationEvent.ask, ConversationEvent.serve,
    ConversationEvent.read, ConversationEvent.handle Answer.done,
    ConversationEvent.write quitText, ConversationEvent.handle Answer.done,
    ConversationEvent.send 24, ConversationEvent.finish [],
    ConversationEvent.receive, ConversationEvent.receive]

def SlavePoint.weight : SlavePoint -> Nat
  | SlavePoint.reading => 0
  | SlavePoint.handler _ => 8
  | SlavePoint.bashHandler _ _ => 7
  | SlavePoint.bashWrite _ _ _ => 6
  | SlavePoint.bashPoll _ _ => 5
  | SlavePoint.usualHandler _ _ => 7
  | SlavePoint.startShell _ => 6
  | SlavePoint.shellStarted _ _ => 5
  | SlavePoint.sendData _ => 4
  | SlavePoint.ended => 0

/-- What is still to be done, more for what is farther from its end. -/
def Conversation.potential (s : Conversation) : Nat :=
  4000 * s.input.length + 3000 * s.requests.length + 12 * s.session.pipe.length +
    s.session.point.weight + 2 * s.response.pipe.length + s.response.network.length

/-- What an event adds from outside, with its own step. -/
def disturbance : ConversationEvent -> Nat
  | ConversationEvent.others _ => 1
  | ConversationEvent.handle Answer.ready => 1
  | ConversationEvent.write bytes => 2 * bytes.length + 1
  | ConversationEvent.sigchld => 1
  | _ => 0

theorem Moves.weight {shellfd shellfd' : Int} {point point' : SlavePoint}
    (h : Moves shellfd point shellfd' point') :
    point'.weight < point.weight ∨
      exists data command, point = SlavePoint.bashPoll data command ∧
        point' = point := by
  cases h with
  | poll data command => exact Or.inr ⟨data, command, rfl, rfl⟩
  | _ => exact Or.inl (by simp only [SlavePoint.weight]; lia)

theorem slaveStep_weight {shellfd shellfd' : Int} {point point' : SlavePoint}
    {answer : Answer}
    (h : slaveStep shellfd point answer = some (shellfd', point')) :
    point'.weight + 1 ≤
      point.weight + disturbance (ConversationEvent.handle answer) := by
  rcases (moves_of_slaveStep h).weight with hlt | ⟨data, command, hpoint, hsame⟩
  · lia
  · rw [hpoint] at h hsame
    cases answer with
    | ready =>
        rw [hpoint, hsame]
        rfl
    | done =>
        cases h
        cases hsame
    | failed => cases h
    | opened fd => cases h

theorem separated_length_le (request data : Bytes) :
    (cstr (separated request data)).length ≤ 246 := by
  have hbuffer : (receiveBuf (some request)).length ≤ BUFSZ := by
    rw [receiveBuf_datagram, decodedPiece, decode, encode_length, List.length_append,
      zeros, List.length_replicate]
    have hle := List.length_take_le (BUFSZ - 1) request
    simp only [BUFSZ] at hle ⊢
    lia
  rw [separated, cstr_separateBuffer]
  refine le_trans (List.takeWhile_prefix _).length_le ?_
  rw [List.length_drop]
  simp only [BUFSZ, IDSZ] at hbuffer ⊢
  lia

section Ending

variable {clientId ip : Bytes} {s s' : Conversation}

theorem potential_ask
    (h : converse capacity clientId ip s ConversationEvent.ask = some s') :
    s'.potential + 1 ≤ s.potential := by
  simp only [converse] at h
  split at h
  case isFalse => cases h
  case isTrue =>
    rcases Option.map_eq_some_iff.mp h with ⟨typed, htyped, heq⟩
    have hshorter : typed.input.length < s.input.length := by
      rcases getStr_cases clientId s.buffer s.input with
        ⟨hnone, _⟩ | ⟨typed', htyped', hshorter, _⟩
      · rw [htyped] at hnone
        cases hnone
      · rw [htyped] at htyped'
        injection htyped' with htyped'
        rw [htyped']
        exact hshorter
    rw [← heq]
    by_cases hfind : typed.command = Command.findall
    · rw [ask_findall s hfind]
      simp only [Conversation.potential, Conversation.print, List.length_append,
        List.length_singleton]
      lia
    · rw [ask_other s hfind]
      simp only [Conversation.potential, List.length_append, List.length_singleton]
      lia

theorem respond_receive_length {r r' : Response}
    (h : respond r ResponseEvent.receive = some r') :
    r'.network.length + 1 = r.network.length := by
  simp only [respond] at h
  split at h
  case h_1 datagram network _ hnetwork =>
    cases h
    rw [hnetwork]
    rfl
  case h_2 => cases h

theorem potential_receive
    (h : converse capacity clientId ip s ConversationEvent.receive = some s') :
    s'.potential + 1 ≤ s.potential := by
  simp only [converse] at h
  split at h
  case h_1 command hasker =>
    rcases Option.map_eq_some_iff.mp h with ⟨next, hreceive, heq⟩
    have hlength := respond_receive_length hreceive
    have hpipe := (respond_receive_flags hreceive).right
    rw [← heq]
    simp only [Conversation.potential, Conversation.receive, hpipe]
    lia
  case h_2 datagram network hasker hnetwork =>
    cases h
    simp only [Conversation.potential, Conversation.find, Conversation.print,
      hnetwork, List.length_cons]
    lia
  case h_3 => cases h

theorem potential_serve
    (h : converse capacity clientId ip s ConversationEvent.serve = some s') :
    s'.potential + 1 ≤ s.potential := by
  simp only [converse] at h
  split at h
  case h_1 => cases h
  case h_2 request requests hrequests =>
    cases h
    by_cases hfind : getCommand (separated request s.data) = Command.findall
    · rw [serve_findall requests hfind]
      simp only [Conversation.potential, hrequests, List.length_cons,
        List.length_append, List.length_nil]
      lia
    · have hshort := separated_length_le request s.data
      rw [serve_other requests hfind, serve_of_written [] hfind]
      simp only [Conversation.potential, hrequests, List.length_cons,
        List.length_append]
      lia

theorem potential_read
    (h : converse capacity clientId ip s ConversationEvent.read = some s') :
    s'.potential + 1 ≤ s.potential := by
  rcases Option.map_eq_some_iff.mp h with ⟨next, hread, heq⟩
  rcases read_cases hread with ⟨hpoint, hpipe, hnext⟩
  have hpos := List.length_pos_iff.mpr hpipe
  rw [← heq, hnext]
  simp only [Conversation.potential, Session.read, SlavePoint.weight, hpoint,
    List.length_drop, BUFSZ]
  lia

theorem potential_handle {answer : Answer}
    (h : converse capacity clientId ip s
      (ConversationEvent.handle answer) = some s') :
    s'.potential + 1 ≤
      s.potential + disturbance (ConversationEvent.handle answer) := by
  simp only [converse] at h
  split at h
  case isFalse => cases h
  case isTrue hhandles =>
    rcases Option.map_eq_some_iff.mp h with ⟨next, hslave, heq⟩
    rcases Option.map_eq_some_iff.mp hslave with ⟨⟨shellfd, point⟩, hstep, hnext⟩
    have hweight := slaveStep_weight hstep
    rw [← heq, ← hnext]
    simp only [Conversation.potential]
    lia

theorem potential_send {size : Nat}
    (h : converse capacity clientId ip s
      (ConversationEvent.send size) = some s') :
    s'.potential + 1 ≤ s.potential := by
  simp only [converse] at h
  split at h
  case h_1 flag hpoint =>
    rcases Option.map_eq_some_iff.mp h with ⟨next, hread, heq⟩
    simp only [respond] at hread
    split at hread
    · rename_i hguard
      cases hread
      rw [← heq]
      simp only [Conversation.potential, List.length_drop, List.length_append,
        List.length_singleton]
      lia
    · cases hread
  case h_2 => cases h

theorem potential_finish {behind : Bytes}
    (h : converse capacity clientId ip s
      (ConversationEvent.finish behind) = some s') :
    s'.potential + 1 ≤ s.potential := by
  simp only [converse] at h
  split at h
  case h_1 flag response next hpoint hfinish hslave =>
    rcases slave_cases hslave with ⟨shellfd, point, hmoves, hnext⟩
    have hweight : point.weight = 0 ∧ s.session.point.weight = 4 := by
      rw [hpoint] at hmoves ⊢
      cases hmoves with
      | again _ _ => exact ⟨rfl, rfl⟩
      | leave => exact ⟨rfl, rfl⟩
    simp only [respond] at hfinish
    split at hfinish
    · cases hfinish
      cases h
      rw [hnext]
      simp only [Conversation.potential, hweight.left, hweight.right,
        List.length_append, List.length_singleton]
      lia
    · cases hfinish
  case h_2 => cases h

theorem potential_step {e : ConversationEvent}
    (h : converse capacity clientId ip s e = some s') :
    s'.potential + 1 ≤ s.potential + disturbance e := by
  cases e with
  | ask => exact potential_ask h
  | receive => exact potential_receive h
  | serve => exact potential_serve h
  | others data =>
      cases h
      exact Nat.le_refl _
  | read => exact potential_read h
  | handle answer => exact potential_handle h
  | write bytes =>
      simp only [converse] at h
      split at h
      · cases h
        simp only [Conversation.potential, disturbance, List.length_append]
        lia
      · cases h
  | send size => exact potential_send h
  | finish behind => exact potential_finish h
  | sigchld =>
      cases h
      exact Nat.le_refl _

theorem conversation_length {input : Bytes} {events : List ConversationEvent}
    (hrun : run (converse capacity clientId ip) (Conversation.start input)
      events = some s) :
    events.length ≤ 4000 * input.length + total disturbance events := by
  rcases run_potential (fun n s => n = s.potential) (fun _ => 1) disturbance
    (fun n s e s' hn _ hstep =>
      ⟨s'.potential, rfl, hn ▸ potential_step hstep⟩)
    rfl (allSteps_of_forall (fun _ _ => trivial) events _) hrun with
    ⟨m, hm, hpaid⟩
  have hstart : (Conversation.start input).potential = 4000 * input.length := rfl
  rw [total_one, hstart] at hpaid
  lia

theorem slaveStep_enabled (shellfd : Int) {point : SlavePoint}
    (h : point.handles = true) :
    exists answer next, answer ≠ Answer.ready ∧
      slaveStep shellfd point answer = some next := by
  cases point with
  | usualHandler data command =>
      by_cases hshell : command = Command.shell
      · rw [hshell]
        exact ⟨Answer.failed, _, by decide, rfl⟩
      · have hstep : slaveStep shellfd (SlavePoint.usualHandler data command)
            Answer.done =
              some (shellfd,
                SlavePoint.sendData (if command = Command.quit then 0 else 1)) := by
          simp only [slaveStep, if_neg hshell]
        exact ⟨Answer.done, _, by decide, hstep⟩
  | reading => cases h
  | sendData flag => cases h
  | ended => cases h
  | _ => exact ⟨Answer.done, _, by decide, rfl⟩

/-- Nothing happens any more, unless somebody disturbs the conversation. -/
def Silent (capacity : Nat) (clientId ip : Bytes) (s : Conversation) : Prop :=
  forall e, disturbance e = 0 -> converse capacity clientId ip s e = none

theorem Silent.false_of_step (h : Silent capacity clientId ip s)
    {e : ConversationEvent} (he : disturbance e = 0)
    (hstep : converse capacity clientId ip s e = some s') : False := by
  rw [h e he] at hstep
  cases hstep

section Progress

variable {input before piece output : Bytes} {asked : List Bytes}
  {answers : List (List Bytes)} {got inFlight chunks : List Bytes} {r : Response}

theorem Silent.not_handles (h : Silent capacity clientId ip s) :
    s.session.point.handles = false := by
  by_contra hne
  have hhandles : s.session.point.handles = true := by simpa using hne
  rcases slaveStep_enabled s.session.shellfd hhandles with
    ⟨answer, next, hanswer, hstep⟩
  have hfree : disturbance (ConversationEvent.handle answer) = 0 := by
    cases answer with
    | ready => exact absurd rfl hanswer
    | _ => rfl
  apply h.false_of_step hfree
  simp only [converse, if_pos hhandles, session, hstep, Option.map_some]
  rfl

theorem Called.sends
    (h : Called input asked answers before piece output got inFlight r s)
    {flag : Int} (hpoint : s.session.point = SlavePoint.sendData flag) :
    ¬ Silent capacity clientId ip s := by
  intro hsilent
  have hended : r.ended = false := by
    rw [h.ended, hpoint]
    rfl
  rcases Nat.eq_zero_or_pos r.pipe.length with hnone | hpos
  · have hpipe : r.pipe = [] := List.length_eq_zero_iff.mp hnone
    have hfinish : respond s.response (ResponseEvent.finish []) ≠ none := by
      rw [h.response, respond_behind, respond, if_pos ⟨hended, hpipe⟩]
      simp
    rcases Option.ne_none_iff_exists'.mp hfinish with ⟨response, hfinish⟩
    apply hsilent.false_of_step (e := ConversationEvent.finish []) rfl
    simp only [converse, hpoint, hfinish, session, slaveStep, Option.map_some]
    rfl
  · have hsend : respond s.response (ResponseEvent.read 1) ≠ none := by
      rw [h.response, respond_behind, respond,
        if_pos ⟨hended, Nat.one_pos, by decide, hpos⟩]
      simp
    rcases Option.ne_none_iff_exists'.mp hsend with ⟨response, hsend⟩
    apply hsilent.false_of_step (e := ConversationEvent.send 1) rfl
    simp only [converse, hpoint, hsend, Option.map_some]
    rfl

theorem Called.receives
    (h : Called input asked answers before piece output got inFlight r s)
    (hquiet : s.session.point.busy = false) : ¬ Silent capacity clientId ip s := by
  intro hsilent
  have hended : r.ended = true := by
    rw [h.ended, hquiet]
    rfl
  have hreceive : respond s.response ResponseEvent.receive ≠ none := by
    rw [h.response, respond_behind]
    cases h.delivery.stage with
    | sending hsending _ _ =>
        rw [hended] at hsending
        cases hsending
    | ending behind _ _ hreturned hnetwork =>
        cases inFlight with
        | nil => simp [respond, hreturned, hnetwork]
        | cons chunk inFlight => simp [respond, hreturned, hnetwork]
    | closed _ _ hreturned _ _ =>
        rw [h.returned] at hreturned
        cases hreturned
  rcases Option.ne_none_iff_exists'.mp hreceive with ⟨response, hreceive⟩
  apply hsilent.false_of_step (e := ConversationEvent.receive) rfl
  simp only [converse, h.asker, hreceive, Option.map_some]
  rfl

theorem Called.not_silent
    (h : Called input asked answers before piece output got inFlight r s) :
    ¬ Silent capacity clientId ip s := by
  intro hsilent
  have hhandles := hsilent.not_handles
  cases hpoint : s.session.point with
  | reading => exact h.receives (by rw [hpoint]; rfl) hsilent
  | ended => exact h.receives (by rw [hpoint]; rfl) hsilent
  | sendData flag => exact h.sends hpoint hsilent
  | _ =>
      rw [hpoint] at hhandles
      cases hhandles

theorem Talk.of_silent (h : Talk ip input asked answers chunks s)
    (hsilent : Silent capacity clientId ip s) :
    s.asker = Asker.ended ∨ s.asker = Asker.typing ∧ s.input = [] := by
  have hserve : s.requests = [] := by
    cases hrequests : s.requests with
    | nil => rfl
    | cons request requests =>
        exfalso
        apply hsilent.false_of_step (e := ConversationEvent.serve) rfl
        simp only [converse, hrequests]
        rfl
  cases h.place with
  | nowhere hpieces hrest hasker hrequests hnetwork hstdout =>
      rcases hasker with ⟨htyping, _⟩ | hended
      · right
        refine ⟨htyping, ?_⟩
        by_contra hne
        rcases getStr_some clientId s.buffer hne with ⟨typed, htyped, _⟩
        apply hsilent.false_of_step (e := ConversationEvent.ask) rfl
        simp only [converse, htyping, htyped, Option.map_some]
        rfl
      · exact Or.inl hended
  | finding piece request hpieces hcommand harrives hrest hpoint hasker hway =>
      exfalso
      rcases hway with ⟨hrequests, _⟩ | ⟨_, data, hnetwork⟩
      · rw [hserve] at hrequests
        cases hrequests
      · apply hsilent.false_of_step (e := ConversationEvent.receive) rfl
        simp only [converse, hasker, hnetwork]
        rfl
  | sent piece request hpieces hcommand harrives hrest hpoint hasker hrequests =>
      rw [hserve] at hrequests
      cases hrequests
  | served piece hpieces hcommand horder hpipe houtputs hpoint =>
      exfalso
      apply hsilent.false_of_step (e := ConversationEvent.read) rfl
      simp only [converse, session, if_pos (And.intro hpoint hpipe)]
      rfl
  | called piece output got inFlight r hcalled =>
      exact absurd hsilent hcalled.not_silent

end Progress

end Ending

end Socket
end UnixPrograms
