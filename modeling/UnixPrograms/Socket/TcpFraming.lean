import UnixPrograms.Socket.Tcp

/-!
# Message framing over TCP

`send_buf` writes records of `BUFSZ` bytes, `receive_buf` asks for
`BUFSZ - 1`, and neither marks the end of a message.  The strings received
are the messages sent exactly when every record begins a result of `recv`
that holds the message whole.
-/

namespace UnixPrograms
namespace Socket
namespace Tcp

open Foundation

/-!
## What a message is on the wire
-/

theorem sendBuf_message {message : Bytes} (h : IsMessage message)
    (inFlight : Bytes) :
    (sendBuf inFlight (paddedBuffer message)).2 =
      inFlight ++ record 0 BUFSZ (masked message) := by
  have hencode :
      encode (paddedBuffer message) = record 0 BUFSZ (masked message) :=
    encode_record h.maskable.noNul
  have hlength := record_length (fits_masked h.nonempty h.le h.maskable)
  rw [sendBuf, hencode, List.take_of_length_le (Nat.le_of_eq hlength)]

/-!
## What a result of `recv` leaves in the buffer
-/

theorem receiveBuf_some {inFlight : Bytes} {size : Nat} (hsize : size < BUFSZ)
    (hle : size ≤ inFlight.length) :
    receiveBuf inFlight (some size) =
      (((strlen (decodedPiece (inFlight.take size)) : Int),
        decodedPiece (inFlight.take size)), inFlight.drop size) := by
  have hlength : (inFlight.take size).length = size := by
    rw [List.length_take]
    exact min_eq_left hle
  simp only [receiveBuf, decodedPiece, zeros, hlength, List.drop_replicate,
    if_neg (Nat.not_le.mpr hsize)]

theorem strings_decodedPieces {pieces : List Bytes}
    (hpieces : forall piece, piece ∈ pieces -> piece.length < BUFSZ)
    (hmask : CR_MASK ∉ pieces.flatten) :
    strings (pieces.map decodedPiece) = (heads 0 pieces).map masked := by
  have hstring : forall piece, piece ∈ pieces ->
      cstr (decodedPiece piece) = masked (headOf 0 piece) := by
    intro piece hpiece
    apply cstr_decodedPiece (hpieces piece hpiece)
    intro hmem
    exact hmask (List.mem_flatten.mpr ⟨piece, hpiece, hmem⟩)
  have hmap : (pieces.map decodedPiece).map cstr =
      (pieces.map (headOf 0)).map masked := by
    rw [List.map_map, List.map_map]
    exact List.map_congr_left hstring
  rw [strings, heads, hmap, List.filter_map]
  congr 1
  apply List.filter_congr
  intro s _
  simp [masked]

/-!
## The cut of the stream

The results of `recv` cut the stream of the records into pieces.  The messages
come through exactly when each record begins a piece that holds its string.
-/

def wire (data : Bytes) : Bytes :=
  (sendBuf [] data).2

/-- The results of `recv` cut the bytes that were sent, and each leaves its
own buffer. -/
theorem run_pieces {events : List Event} {c c' : Connection}
    (hrun : run step c events = some c') :
    exists pieces : List Bytes,
      pieces.map List.length = recvResults events ∧
        (forall piece, piece ∈ pieces -> piece ≠ [] ∧ piece.length < BUFSZ) ∧
        pieces.flatten ++ c'.inFlight =
          c.inFlight ++ ((sentBuffers events).map wire).flatten ∧
        c'.buffers = c.buffers ++ pieces.map decodedPiece := by
  induction events generalizing c with
  | nil =>
      cases hrun
      exact ⟨[], rfl, by simp, by simp [sentBuffers], by simp⟩
  | cons e events ih =>
      rcases run_cons_eq_some hrun with ⟨mid, hstep, hrest⟩
      rcases ih hrest with ⟨pieces, hsizes, hpieces, hflat, hbuffers⟩
      cases e with
      | send data =>
          cases hstep
          refine ⟨pieces, hsizes, hpieces, ?_, hbuffers⟩
          rw [hflat]
          simp [sentBuffers, wire, sendBuf]
      | receive size =>
          simp only [step] at hstep
          split at hstep
          · rename_i hguard
            rcases hguard with ⟨hpos, hsize, hle⟩
            have hlt : size < BUFSZ := by
              simp only [BUFSZ] at *
              lia
            rw [receiveBuf_some hlt hle] at hstep
            cases hstep
            have hlength : (c.inFlight.take size).length = size := by
              rw [List.length_take]
              exact min_eq_left hle
            refine ⟨c.inFlight.take size :: pieces, ?_, ?_, ?_, ?_⟩
            · rw [List.map_cons, hlength, hsizes]
              rfl
            · intro piece hpiece
              rcases List.mem_cons.mp hpiece with heq | hmem
              · rw [heq, hlength]
                refine ⟨?_, hlt⟩
                intro hnil
                rw [hnil] at hlength
                exact Nat.ne_of_gt hpos hlength.symm
              · exact hpieces piece hmem
            · rw [List.flatten_cons, List.append_assoc, hflat,
                ← List.append_assoc, List.take_append_drop]
              rfl
            · rw [hbuffers, List.append_assoc]
              rfl
          · cases hstep

theorem wire_messages {messages : List Bytes}
    (h : forall message, message ∈ messages -> IsMessage message) :
    ((messages.map paddedBuffer).map wire).flatten =
      ((messages.map masked).map (record 0 BUFSZ)).flatten := by
  rw [List.map_map, List.map_map]
  congr 1
  apply List.map_congr_left
  intro message hmessage
  exact sendBuf_message (h message hmessage) []

theorem mask_notMem_stream {messages : List Bytes}
    (h : forall message, message ∈ messages -> IsMessage message) :
    CR_MASK ∉ ((messages.map masked).map (record 0 BUFSZ)).flatten := by
  intro hmem
  rcases List.mem_flatten.mp hmem with ⟨row, hrow, hmask⟩
  rw [List.map_map] at hrow
  rcases List.mem_map.mp hrow with ⟨message, hmessage, heq⟩
  rw [← heq] at hmask
  exact mask_notMem_record (h message hmessage).maskable.noNul hmask

/-- The record of every message begins a result of `recv`, and that result
holds the message whole. -/
def Aligned (messages : List Bytes) (sizes : List Nat) : Prop :=
  forall i message, messages[i]? = some message ->
    exists k size, sizes[k]? = some size ∧
      (sizes.take k).sum = BUFSZ * i ∧ message.length ≤ size

theorem aligned_iff (messages : List Bytes) (sizes : List Nat) :
    Aligned messages sizes <->
      AlignedFrom BUFSZ 0 (messages.map masked) sizes := by
  constructor
  · intro h i content hi
    rw [List.getElem?_map] at hi
    rcases Option.map_eq_some_iff.mp hi with ⟨message, hmessage, hcontent⟩
    rcases h i message hmessage with ⟨k, size, hk, hsum, hlength⟩
    refine ⟨k, size, hk, by rw [hsum, Nat.zero_add], ?_⟩
    rw [← hcontent, masked_length]
    exact hlength
  · intro h i message hi
    have hcontent : (messages.map masked)[i]? = some (masked message) := by
      rw [List.getElem?_map, hi]
      rfl
    rcases h i _ hcontent with ⟨k, size, hk, hsum, hlength⟩
    rw [Nat.zero_add] at hsum
    rw [masked_length] at hlength
    exact ⟨k, size, hk, hsum, hlength⟩

/-- The strings received are the messages sent exactly when the results of
`recv` are aligned with the messages. -/
theorem messages_received_iff {messages : List Bytes} {events : List Event}
    {c : Connection}
    (hmessages : forall message, message ∈ messages -> IsMessage message)
    (hsent : sentBuffers events = messages.map paddedBuffer)
    (hrun : run step Connection.opened events = some c)
    (harrived : c.inFlight = []) :
    strings c.buffers = messages <-> Aligned messages (recvResults events) := by
  rcases run_pieces hrun with ⟨pieces, hsizes, hpieces, hflat, hbuffers⟩
  rw [hsent, wire_messages hmessages, harrived, List.append_nil] at hflat
  have hfits : forall content, content ∈ messages.map masked ->
      Fits 0 BUFSZ content := by
    intro content hcontent
    rcases List.mem_map.mp hcontent with ⟨message, hmessage, heq⟩
    rw [← heq]
    have h := hmessages message hmessage
    exact fits_masked h.nonempty h.le h.maskable
  have hmask : CR_MASK ∉ pieces.flatten := by
    rw [hflat]
    exact mask_notMem_stream hmessages
  have hstream : pieces.flatten =
      List.replicate 0 0 ++
        ((messages.map masked).map (record 0 BUFSZ)).flatten := hflat
  have hiff := heads_eq_iff
    (fun piece h => ⟨(hpieces piece h).left, Nat.le_of_lt (hpieces piece h).right⟩)
    hfits hstream
  rw [aligned_iff, ← hsizes, ← hiff, hbuffers]
  change strings (pieces.map decodedPiece) = messages <-> _
  rw [strings_decodedPieces (fun piece h => (hpieces piece h).right) hmask]
  constructor
  · intro h
    rw [← h, map_masked_map_masked]
  · intro h
    rw [h, map_masked_map_masked]

theorem isMessage_commands :
    forall message, message ∈ [LS, QUIT] -> IsMessage message := by
  intro message h
  simp only [List.mem_cons, List.not_mem_nil, or_false] at h
  rcases h with h | h
  all_goals
    rw [h]
    exact ⟨by decide, by decide, by decide⟩

def sentApart : List Event :=
  [Event.send (paddedBuffer LS), Event.receive 255, Event.receive 1,
    Event.send (paddedBuffer QUIT), Event.receive 255, Event.receive 1]

theorem messages_received_iff_apart :
    exists c, run step Connection.opened sentApart = some c ∧
      strings c.buffers = [LS, QUIT] := by
  have hrun : exists c,
      run step Connection.opened sentApart = some c ∧ c.inFlight = [] := by
    decide +kernel
  rcases hrun with ⟨c, hrun, harrived⟩
  refine ⟨c, hrun, ?_⟩
  apply (messages_received_iff isMessage_commands rfl hrun harrived).mpr
  intro i message hi
  match i, hi with
  | 0, hi =>
      cases hi
      exact ⟨0, 255, rfl, rfl, by decide⟩
  | 1, hi =>
      cases hi
      exact ⟨2, 255, rfl, rfl, by decide⟩

/-- Two messages that are both under way when the receiver asks: the last byte
of the first record comes before the second message and hides it. -/
def sentTogether : List Event :=
  [Event.send (paddedBuffer LS), Event.send (paddedBuffer QUIT),
    Event.receive 255, Event.receive 255, Event.receive 2]

theorem second_message_lost :
    (forall message, message ∈ [LS, QUIT] -> IsMessage message) ∧
      sentBuffers sentTogether = [LS, QUIT].map paddedBuffer ∧
      exists c, run step Connection.opened sentTogether = some c ∧
        c.inFlight = [] ∧ strings c.buffers = [LS] ∧
        strings c.buffers ≠ [LS, QUIT] := by
  have hrun : exists c, run step Connection.opened sentTogether = some c ∧
      c.inFlight = [] ∧ strings c.buffers = [LS] := by
    decide +kernel
  rcases hrun with ⟨c, hrun, harrived, hstrings⟩
  refine ⟨isMessage_commands, rfl, c, hrun, harrived, hstrings, ?_⟩
  rw [hstrings]
  decide

end Tcp
end Socket
end UnixPrograms
