import UnixPrograms.Socket.Tcp
import UnixPrograms.Socket.UdpResponse

/-!
# The dialogue over TCP

The client's loop and its TCP slave over a connection.  Both directions are
reliable streams of bytes that `recv` cuts as it pleases.  A response has no
end of its own: `receive_data` returns when a received string is empty, which
is so when the bytes received begin with a zero or with the mask.
-/

namespace UnixPrograms
namespace Socket
namespace Tcp

open Foundation

inductive ClientPoint where
  | typing
  /-- In the `recv` of `receive_data`, after a request with this command. -/
  | receiving (command : Command)
  /-- In the `recv` of `findall_handler`. -/
  | finding
  | ended
deriving DecidableEq

inductive ServerPoint where
  /-- In the `recv` of `receive_buf`. -/
  | receiving
  | handling (data : Bytes)
  /-- In `send_data`, with the result of `handler`. -/
  | sending (flag : Int)
  | ended
deriving DecidableEq

/-- The request buffers still to be sent, the two sides, the bytes in flight
from and to the client, and the content of `buf_pipe`. -/
structure Dialogue where
  requests : List Bytes
  client : ClientPoint
  slave : ServerPoint
  up : Bytes
  down : Bytes
  output : Bytes

def Dialogue.start (requests : List Bytes) : Dialogue where
  requests := requests
  client := ClientPoint.typing
  slave := ServerPoint.receiving
  up := []
  down := []
  output := []

inductive DialogueEvent where
  | request
  | clientRecv (size : Nat)
  | hangUp
  | slaveRecv (size : Nat)
  | handle (output : Bytes) (flag : Int)
  | sendChunk (size : Nat)
  | pollEnds
deriving DecidableEq

def received (ret : Int) : ClientPoint -> ClientPoint
  | ClientPoint.receiving command =>
      if ret ≠ 0 then ClientPoint.receiving command
      else if command = Command.quit then ClientPoint.ended
      else ClientPoint.typing
  | ClientPoint.finding => ClientPoint.typing
  | other => other

def ClientPoint.waits : ClientPoint -> Bool
  | ClientPoint.receiving _ => true
  | ClientPoint.finding => true
  | _ => false

def Dialogue.send (s : Dialogue) (data : Bytes) (rest : List Bytes) : Dialogue :=
  let command := getCommand (data.drop IDSZ)
  { s with
    requests := rest
    client :=
      if command = Command.findall then ClientPoint.finding
      else ClientPoint.receiving command
    up := (sendBuf s.up data).2 }

def Dialogue.accept (s : Dialogue) (size : Nat) : Dialogue :=
  let ((ret, buffer), up) := receiveBuf s.up (some size)
  if ret ≤ 0 then
    { s with up := up }
  else
    let data := (separateBuffer buffer (zeros BUFSZ)).2
    if getCommand data = Command.findall then
      let data := strcpy data (text ['s', 'e', 'r', 'v', 'e', 'r'])
      { s with up := up, down := (sendBuf s.down data).2 }
    else
      { s with up := up, slave := ServerPoint.handling data }

/-- One iteration of `send_data`. -/
def Dialogue.forward (s : Dialogue) (size : Nat) : Dialogue :=
  { s with
    output := s.output.drop size
    down := (sendBuf s.down (readData (s.output.take size))).2 }

/-- Each `recv` waits for a byte and is asked for `BUFSZ - 1` of them; at the
end of the connection it returns 0. -/
def dialogue (s : Dialogue) : DialogueEvent -> Option Dialogue
  | DialogueEvent.request =>
      match s.client, s.requests with
      | ClientPoint.typing, data :: rest => some (s.send data rest)
      | _, _ => none
  | DialogueEvent.clientRecv size =>
      if s.client.waits = true ∧ 0 < size ∧ size ≤ BUFSZ - 1 ∧
          size ≤ s.down.length then
        let ((ret, _), down) := receiveBuf s.down (some size)
        some { s with client := received ret s.client, down := down }
      else
        none
  | DialogueEvent.hangUp =>
      if s.client.waits = true ∧ s.slave = ServerPoint.ended ∧ s.down = [] then
        some { s with client := received 0 s.client }
      else
        none
  | DialogueEvent.slaveRecv size =>
      if s.slave = ServerPoint.receiving ∧ 0 < size ∧ size ≤ BUFSZ - 1 ∧
          size ≤ s.up.length then
        some (s.accept size)
      else
        none
  | DialogueEvent.handle output flag =>
      match s.slave with
      | ServerPoint.handling data =>
          if flag = 0 -> getCommand data = Command.quit then
            some
              { s with
                output := s.output ++ output
                slave := ServerPoint.sending flag }
          else
            none
      | _ => none
  | DialogueEvent.sendChunk size =>
      match s.slave with
      | ServerPoint.sending _ =>
          if 0 < size ∧ size ≤ BUFSZ ∧ size ≤ s.output.length then
            some (s.forward size)
          else
            none
      | _ => none
  | DialogueEvent.pollEnds =>
      match s.slave with
      | ServerPoint.sending flag =>
          if s.output = [] then
            some
              { s with
                slave :=
                  if flag ≠ 0 then ServerPoint.receiving
                  else ServerPoint.ended }
          else
            none
      | _ => none

def Dialogue.Deadlocked (s : Dialogue) : Prop :=
  (exists command, s.client = ClientPoint.receiving command) ∧
    s.slave = ServerPoint.receiving ∧ s.up = [] ∧ s.down = []

/-!
## Steps that cannot end in a deadlock
-/

/-- The bytes begin with a terminator: they are decoded to an empty string. -/
def Terminated (bytes : Bytes) : Prop :=
  bytes.head? = some 0 ∨ bytes.head? = some CR_MASK

instance (bytes : Bytes) : Decidable (Terminated bytes) :=
  inferInstanceAs (Decidable (_ ∨ _))

def ServerPoint.isHandling : ServerPoint -> Bool
  | ServerPoint.handling _ => true
  | _ => false

def Dialogue.MoreToCome (s : Dialogue) : Prop :=
  s.output ≠ [] ∨ s.slave.isHandling = true ∨ BUFSZ ≤ s.up.length

instance (s : Dialogue) : Decidable s.MoreToCome :=
  inferInstanceAs (Decidable (_ ∨ _ ∨ _))

/-- No output is empty; the slave's `recv` does not begin in the padding of a
request and take the first byte of the next one, which is where a multiple of
`BUFSZ` bytes is in flight; and a `recv` of the client that does not end
`receive_data` leaves a byte in flight or has more to come. -/
def Proper (s : Dialogue) : DialogueEvent -> Prop
  | DialogueEvent.clientRecv size =>
      Terminated s.down ∨ size < s.down.length ∨ s.MoreToCome
  | DialogueEvent.slaveRecv size =>
      Terminated s.up -> size ≤ s.up.length % BUFSZ
  | DialogueEvent.handle output _ => output ≠ []
  | _ => True

instance (s : Dialogue) : forall e, Decidable (Proper s e)
  | DialogueEvent.clientRecv size =>
      inferInstanceAs
        (Decidable (Terminated s.down ∨ size < s.down.length ∨ s.MoreToCome))
  | DialogueEvent.slaveRecv size =>
      inferInstanceAs
        (Decidable (Terminated s.up -> size ≤ s.up.length % BUFSZ))
  | DialogueEvent.handle output _ => inferInstanceAs (Decidable (output ≠ []))
  | DialogueEvent.request => isTrue trivial
  | DialogueEvent.hangUp => isTrue trivial
  | DialogueEvent.sendChunk _ => isTrue trivial
  | DialogueEvent.pollEnds => isTrue trivial

/-!
## Buffers and results
-/

theorem received_receiving {ret : Int} {client : ClientPoint}
    {command : Command} (hwaits : client.waits = true)
    (h : received ret client = ClientPoint.receiving command) : ret ≠ 0 := by
  cases client with
  | typing => cases hwaits
  | receiving command' =>
      simp only [received] at h
      split at h
      · rename_i hret
        exact hret
      · split at h
        · cases h
        · cases h
  | finding => cases h
  | ended => cases hwaits

theorem encode_head (b : UInt8) (rest : Bytes) :
    (encode (b :: rest)).head? = some (if b = 0 then 0 else b ^^^ CR_MASK) := by
  by_cases hb : b = 0
  · rw [hb]
    rfl
  · have hstr : cstr (b :: rest) = b :: cstr rest := by
      simp [cstr, hb]
    rw [encode, hstr, if_neg hb]
    rfl

theorem strlen_eq_zero_iff {buffer : Bytes} {b : UInt8}
    (h : buffer.head? = some b) : strlen buffer = 0 <-> b = 0 := by
  cases buffer with
  | nil => cases h
  | cons c rest =>
      injection h with h
      rw [h, strlen, cstr, List.takeWhile_cons]
      split
      · rename_i hb
        simpa using hb
      · rename_i hb
        simpa using hb

theorem receiveBuf_result {inFlight : Bytes} {size : Nat} (hpos : 0 < size)
    (hsize : size ≤ BUFSZ - 1) (hle : size ≤ inFlight.length) :
    0 ≤ (receiveBuf inFlight (some size)).1.1 ∧
      ((receiveBuf inFlight (some size)).1.1 = 0 <-> Terminated inFlight) := by
  have hlt : ¬ BUFSZ ≤ size := by
    unfold BUFSZ at *
    lia
  cases inFlight with
  | nil =>
      rw [List.length_nil] at hle
      lia
  | cons b rest =>
      cases size with
      | zero => cases hpos
      | succ size =>
          simp only [receiveBuf, if_neg hlt, List.take_succ_cons, List.cons_append]
          constructor
          · exact Int.natCast_nonneg _
          · rw [Int.natCast_eq_zero, decode, strlen_eq_zero_iff (encode_head b _),
              Terminated, List.head?_cons, Option.some.injEq, Option.some.injEq]
            by_cases hb : b = 0
            · rw [if_pos hb, hb]
              simp
            · rw [if_neg hb]
              constructor
              · intro hmask
                apply Or.inr
                by_contra hne
                exact mask_ne_zero hne hmask
              · intro h
                rcases h with hzero | hmask
                · exact absurd hzero hb
                · rw [hmask]
                  rfl

theorem receiveBuf_rest {inFlight : Bytes} {size : Nat} (hsize : size ≤ BUFSZ - 1) :
    (receiveBuf inFlight (some size)).2 = inFlight.drop size := by
  have hlt : ¬ BUFSZ ≤ size := by
    unfold BUFSZ at *
    lia
  simp only [receiveBuf, if_neg hlt]

theorem sendBuf_length (inFlight data : Bytes) :
    (sendBuf inFlight data).2.length = inFlight.length + min BUFSZ data.length := by
  show (inFlight ++ (encode data).take BUFSZ).length = _
  rw [List.length_append, List.length_take, encode_length]

/-!
## The invariant

What the client waits for is on its way: in flight, in the output of the slave,
or still to come from `handler`.  A deadlock would leave none of these.
-/

structure OnItsWay (s : Dialogue) : Prop where
  requests : forall data, data ∈ s.requests -> data.length = BUFSZ
  output : s.output ≠ [] -> exists flag, s.slave = ServerPoint.sending flag
  coming : forall command, s.client = ClientPoint.receiving command ->
    s.down ≠ [] ∨ s.MoreToCome

theorem OnItsWay.start {requests : List Bytes}
    (h : forall data, data ∈ requests -> data.length = BUFSZ) :
    OnItsWay (Dialogue.start requests) where
  requests := h
  output := fun hne => absurd rfl hne
  coming := by
    intro command hclient
    cases hclient

theorem OnItsWay.not_deadlocked {s : Dialogue} (h : OnItsWay s) :
    ¬ s.Deadlocked := by
  intro hdead
  rcases hdead with ⟨⟨command, hclient⟩, hslave, hup, hdown⟩
  rcases h.coming command hclient with hne | hne | hhandling | hlength
  · exact hne hdown
  · rcases h.output hne with ⟨flag, hsending⟩
    rw [hslave] at hsending
    cases hsending
  · rw [hslave] at hhandling
    cases hhandling
  · rw [hup] at hlength
    cases hlength

theorem OnItsWay.request {s s' : Dialogue} (h : OnItsWay s)
    (hstep : dialogue s DialogueEvent.request = some s') : OnItsWay s' := by
  simp only [dialogue] at hstep
  split at hstep
  · rename_i data rest hclient hrequests
    injection hstep with hstep
    rw [← hstep]
    have hdata : data.length = BUFSZ :=
      h.requests data (by rw [hrequests]; exact List.mem_cons_self)
    constructor
    case requests =>
      intro other hmem
      exact h.requests other
        (by rw [hrequests]; exact List.mem_cons_of_mem data hmem)
    case output => exact h.output
    case coming =>
      intro command _
      apply Or.inr
      apply Or.inr
      apply Or.inr
      show BUFSZ ≤ (sendBuf s.up data).2.length
      rw [sendBuf_length, hdata]
      lia
  · cases hstep

theorem OnItsWay.clientRecv {s s' : Dialogue} {size : Nat} (h : OnItsWay s)
    (hproper : Proper s (DialogueEvent.clientRecv size))
    (hstep : dialogue s (DialogueEvent.clientRecv size) = some s') :
    OnItsWay s' := by
  simp only [dialogue] at hstep
  split at hstep
  · rename_i hcond
    rcases hcond with ⟨hwaits, hpos, hsize, hle⟩
    injection hstep with hstep
    rw [← hstep]
    constructor
    case requests => exact h.requests
    case output => exact h.output
    case coming =>
      intro command hclient
      have hret := received_receiving hwaits hclient
      rw [ne_eq, (receiveBuf_result hpos hsize hle).right] at hret
      rcases hproper with hterminated | hlt | hmore
      · exact absurd hterminated hret
      · apply Or.inl
        show (receiveBuf s.down (some size)).2 ≠ []
        rw [receiveBuf_rest hsize]
        intro hnil
        have hlength := List.drop_eq_nil_iff.mp hnil
        lia
      · exact Or.inr hmore
  · cases hstep

theorem OnItsWay.accept {s : Dialogue} {size : Nat} (h : OnItsWay s)
    (hslave : s.slave = ServerPoint.receiving) (hpos : 0 < size)
    (hsize : size ≤ BUFSZ - 1) (hle : size ≤ s.up.length)
    (hproper : Proper s (DialogueEvent.slaveRecv size)) :
    OnItsWay (s.accept size) := by
  have houtput : s.output = [] := by
    by_contra hne
    rcases h.output hne with ⟨flag, hsending⟩
    rw [hslave] at hsending
    cases hsending
  rcases receiveBuf_result hpos hsize hle with ⟨hnonneg, hzero⟩
  unfold Dialogue.accept
  cases hrecv : receiveBuf s.up (some size) with
  | mk result up =>
      rcases result with ⟨ret, buffer⟩
      have hup : up = s.up.drop size := by
        rw [← receiveBuf_rest hsize, hrecv]
      rw [hrecv] at hnonneg hzero
      simp only
      split
      · rename_i hret
        have hterminated : Terminated s.up := hzero.mp (le_antisymm hret hnonneg)
        have hbound := hproper hterminated
        constructor
        case requests => exact h.requests
        case output => exact h.output
        case coming =>
          intro command hclient
          rcases h.coming command hclient with hdown | hne | hhandling | hlength
          · exact Or.inl hdown
          · exact absurd houtput hne
          · rw [hslave] at hhandling
            cases hhandling
          · apply Or.inr
            apply Or.inr
            apply Or.inr
            show BUFSZ ≤ up.length
            rw [hup, List.length_drop]
            have hdiv := Nat.div_add_mod s.up.length BUFSZ
            have hone : 1 ≤ s.up.length / BUFSZ :=
              (Nat.one_le_div_iff (by decide)).mpr hlength
            unfold BUFSZ at *
            lia
      · split
        · constructor
          case requests => exact h.requests
          case output => exact h.output
          case coming =>
            intro command hclient
            apply Or.inl
            intro hnil
            have hlength := congrArg List.length hnil
            rw [sendBuf_length] at hlength
            simp [strcpy] at hlength
            unfold BUFSZ at hlength
            lia
        · constructor
          case requests => exact h.requests
          case output => exact fun hne => absurd houtput hne
          case coming =>
            intro command hclient
            exact Or.inr (Or.inr (Or.inl rfl))

theorem OnItsWay.hangUp {s s' : Dialogue} (h : OnItsWay s)
    (hstep : dialogue s DialogueEvent.hangUp = some s') : OnItsWay s' := by
  simp only [dialogue] at hstep
  split at hstep
  · rename_i hcond
    injection hstep with hstep
    rw [← hstep]
    constructor
    case requests => exact h.requests
    case output => exact h.output
    case coming =>
      intro command hclient
      exact absurd rfl (received_receiving hcond.left hclient)
  · cases hstep

theorem OnItsWay.handle {s s' : Dialogue} {output : Bytes} {flag : Int}
    (h : OnItsWay s) (hproper : Proper s (DialogueEvent.handle output flag))
    (hstep : dialogue s (DialogueEvent.handle output flag) = some s') :
    OnItsWay s' := by
  simp only [dialogue] at hstep
  split at hstep
  · split at hstep
    · injection hstep with hstep
      rw [← hstep]
      constructor
      case requests => exact h.requests
      case output => exact fun _ => ⟨flag, rfl⟩
      case coming =>
        intro command hclient
        exact Or.inr (Or.inl (List.append_ne_nil_of_right_ne_nil _ hproper))
    · cases hstep
  · cases hstep

theorem OnItsWay.sendChunk {s s' : Dialogue} {size : Nat} (h : OnItsWay s)
    (hstep : dialogue s (DialogueEvent.sendChunk size) = some s') :
    OnItsWay s' := by
  simp only [dialogue] at hstep
  split at hstep
  · rename_i flag hslave
    split at hstep
    · rename_i hcond
      injection hstep with hstep
      rw [← hstep]
      constructor
      case requests => exact h.requests
      case output => exact fun _ => ⟨flag, hslave⟩
      case coming =>
        intro command hclient
        apply Or.inl
        intro hnil
        have hlength := congrArg List.length hnil
        have hchunk : (readData (s.output.take size)).length = BUFSZ := by
          rw [readData, List.length_append, List.length_drop, List.length_take,
            zeros, List.length_replicate]
          lia
        simp only [Dialogue.forward, sendBuf_length, hchunk, List.length_nil] at hlength
        unfold BUFSZ at hlength
        lia
    · cases hstep
  · cases hstep

theorem OnItsWay.pollEnds {s s' : Dialogue} (h : OnItsWay s)
    (hstep : dialogue s DialogueEvent.pollEnds = some s') : OnItsWay s' := by
  simp only [dialogue] at hstep
  split at hstep
  · rename_i flag hslave
    split at hstep
    · rename_i hempty
      injection hstep with hstep
      rw [← hstep]
      constructor
      case requests => exact h.requests
      case output => exact fun hne => absurd hempty hne
      case coming =>
        intro command hclient
        rcases h.coming command hclient with hdown | hne | hhandling | hlength
        · exact Or.inl hdown
        · exact absurd hempty hne
        · rw [hslave] at hhandling
          cases hhandling
        · exact Or.inr (Or.inr (Or.inr hlength))
    · cases hstep
  · cases hstep

theorem OnItsWay.step {s s' : Dialogue} {e : DialogueEvent} (h : OnItsWay s)
    (hproper : Proper s e) (hstep : dialogue s e = some s') : OnItsWay s' := by
  cases e with
  | request => exact h.request hstep
  | clientRecv size => exact h.clientRecv hproper hstep
  | hangUp => exact h.hangUp hstep
  | slaveRecv size =>
      simp only [dialogue] at hstep
      split at hstep
      · rename_i hcond
        injection hstep with hstep
        rw [← hstep]
        exact h.accept hcond.left hcond.right.left hcond.right.right.left
          hcond.right.right.right hproper
      · cases hstep
  | handle output flag => exact h.handle hproper hstep
  | sendChunk size => exact h.sendChunk hstep
  | pollEnds => exact h.pollEnds hstep

/-- A dialogue whose steps are all proper never deadlocks. -/
theorem dialogue_not_deadlocked {requests : List Bytes}
    {events : List DialogueEvent} {s : Dialogue}
    (hrequests : forall data, data ∈ requests -> data.length = BUFSZ)
    (hproper : AllSteps dialogue Proper (Dialogue.start requests) events)
    (hrun : run dialogue (Dialogue.start requests) events = some s) :
    ¬ s.Deadlocked :=
  (run_invariant OnItsWay (fun _ _ _ hs hproper hstep => hs.step hproper hstep)
    (OnItsWay.start hrequests) hproper hrun).not_deadlocked

def lsRequest : Bytes :=
  paddedBuffer (text ['0', '0', '0', '0', '0', '0', '0', '0', '4', '2'] ++ LS)

theorem dialogue_not_deadlocked_ls :
    exists s,
      run dialogue (Dialogue.start [lsRequest])
          [DialogueEvent.request, DialogueEvent.slaveRecv 255,
            DialogueEvent.handle (text ['a']) 1, DialogueEvent.sendChunk 1,
            DialogueEvent.pollEnds, DialogueEvent.slaveRecv 1,
            DialogueEvent.clientRecv 255] = some s ∧
        s.client = ClientPoint.receiving Command.ls ∧ ¬ s.Deadlocked := by
  have hrun : exists s,
      run dialogue (Dialogue.start [lsRequest])
          [DialogueEvent.request, DialogueEvent.slaveRecv 255,
            DialogueEvent.handle (text ['a']) 1, DialogueEvent.sendChunk 1,
            DialogueEvent.pollEnds, DialogueEvent.slaveRecv 1,
            DialogueEvent.clientRecv 255] = some s ∧
        s.client = ClientPoint.receiving Command.ls := by
    decide +kernel
  rcases hrun with ⟨s, hrun, hclient⟩
  exact ⟨s, hrun, hclient,
    dialogue_not_deadlocked (by decide +kernel) (by decide +kernel) hrun⟩

/-- A request whose output is empty: nothing is sent back, and both sides
wait. -/
theorem dialogue_deadlocks :
    exists s,
      run dialogue (Dialogue.start [lsRequest])
          [DialogueEvent.request, DialogueEvent.slaveRecv 255,
            DialogueEvent.handle [] 1, DialogueEvent.pollEnds,
            DialogueEvent.slaveRecv 1] = some s ∧
        (cstr lsRequest ≠ [] ∧ lsRequest.length = BUFSZ) ∧ s.Deadlocked := by
  have hrun : exists s,
      run dialogue (Dialogue.start [lsRequest])
          [DialogueEvent.request, DialogueEvent.slaveRecv 255,
            DialogueEvent.handle [] 1, DialogueEvent.pollEnds,
            DialogueEvent.slaveRecv 1] = some s ∧
        s.client = ClientPoint.receiving Command.ls ∧
        s.slave = ServerPoint.receiving ∧ s.up = [] ∧ s.down = [] := by
    decide +kernel
  rcases hrun with ⟨s, hrun, hclient, hslave, hup, hdown⟩
  exact ⟨s, hrun, by decide +kernel, ⟨Command.ls, hclient⟩, hslave, hup, hdown⟩

end Tcp
end Socket
end UnixPrograms
