import UnixPrograms.Foundation.Transition
import UnixPrograms.Socket.UdpMaster

/-!
# The response over UDP

`send_data` reads the output of a command in chunks and sends a datagram for
each, `slave` sends the empty message after it, and `receive_data` of the
client writes what it receives until it has received a string of length zero.
The network keeps the datagrams in order and loses none.  The chunks end where
`read` pleases, up to `BUFSZ` bytes.
-/

namespace UnixPrograms
namespace Socket

open Foundation

def readData (chunk : Bytes) : Bytes :=
  let data := zeros BUFSZ
  chunk ++ data.drop chunk.length

def datagramOf (data : Bytes) : Bytes :=
  (encode data).take BUFSZ

def receiveBufSize (datagram : Option Bytes) : Int :=
  match datagram with
  | none => -1
  | some _ => strlen (receiveBuf datagram)

/-- One iteration of `receive_data`: the size, which is zero in the last
iteration, and what has been written. -/
def receiveDataIteration (stdout : Bytes) (datagram : Option Bytes) :
    Int × Bytes :=
  let buffer := receiveBuf datagram
  let size := receiveBufSize datagram
  (size, if 0 < size then stdout ++ buffer.take size.toNat else stdout)

/-- A slave that sends the output in its pipe, the network, and the client in
`receive_data`. -/
structure Response where
  pipe : Bytes
  ended : Bool
  network : List Bytes
  stdout : Bytes
  returned : Bool

def Response.start (output : Bytes) : Response where
  pipe := output
  ended := false
  network := []
  stdout := []
  returned := false

inductive ResponseEvent where
  | read (size : Nat)
  | finish (behind : Bytes)
  | receive
deriving DecidableEq

/-- `finish` is the end of `send_data`, on an empty pipe, and the message ""
after it; `behind` are the bytes in memory behind that literal. -/
def respond (s : Response) : ResponseEvent -> Option Response
  | ResponseEvent.read size =>
      if s.ended = false ∧ 0 < size ∧ size ≤ BUFSZ ∧ size ≤ s.pipe.length then
        some
          { s with
            pipe := s.pipe.drop size
            network := s.network ++ [datagramOf (readData (s.pipe.take size))] }
      else
        none
  | ResponseEvent.finish behind =>
      if s.ended = false ∧ s.pipe = [] then
        some
          { s with
            ended := true
            network := s.network ++ [datagramOf (0 :: behind)] }
      else
        none
  | ResponseEvent.receive =>
      match s.returned, s.network with
      | false, datagram :: network =>
          let (size, stdout) := receiveDataIteration s.stdout (some datagram)
          some
            { s with
              network := network
              stdout := stdout
              returned := decide (size = 0) }
      | _, _ => none

def readSizes (events : List ResponseEvent) : List Nat :=
  events.filterMap (fun e =>
    match e with
    | ResponseEvent.read size => some size
    | _ => none)

/-!
## One datagram

A chunk travels as one record.  Of a chunk that fills the buffer the last byte is
cut, since `receive_buf` keeps a byte for the terminator.
-/

theorem readData_eq (chunk : Bytes) :
    readData chunk = record 0 BUFSZ chunk := by
  rw [readData, zeros, List.drop_replicate, record]

theorem datagramOf_readData {chunk : Bytes} (hnonempty : chunk ≠ [])
    (hshort : chunk.length ≤ BUFSZ) (h : Maskable chunk) :
    datagramOf (readData chunk) = record 0 BUFSZ (masked chunk) := by
  have hlength := record_length (fits_masked hnonempty hshort h)
  rw [datagramOf, readData_eq, encode_record h.noNul,
    List.take_of_length_le (Nat.le_of_eq hlength)]

theorem receiveBuf_datagram (datagram : Bytes) :
    receiveBuf (some datagram) = decodedPiece (datagram.take (BUFSZ - 1)) := rfl

theorem cstr_receiveBuf_chunk {chunk : Bytes} (hnonempty : chunk ≠ [])
    (hshort : chunk.length ≤ BUFSZ) (h : Maskable chunk) :
    cstr (receiveBuf (some (datagramOf (readData chunk)))) =
      chunk.take (BUFSZ - 1) := by
  have hfits := fits_masked hnonempty hshort h
  have hmask : CR_MASK ∉ (record 0 BUFSZ (masked chunk)).take (BUFSZ - 1) :=
    fun hmem => mask_notMem_record h.noNul (List.mem_of_mem_take hmem)
  have hlength :
      ((record 0 BUFSZ (masked chunk)).take (BUFSZ - 1)).length < BUFSZ :=
    Nat.lt_of_le_of_lt (List.length_take_le _ _) (by decide)
  rw [datagramOf_readData hnonempty hshort h, receiveBuf_datagram,
    cstr_decodedPiece hlength hmask, headOf_take_record hfits, masked, masked,
    ← List.map_take]
  exact masked_masked _

theorem receiveDataIteration_some (stdout datagram : Bytes) :
    receiveDataIteration stdout (some datagram) =
      ((strlen (receiveBuf (some datagram)) : Int),
        stdout ++ cstr (receiveBuf (some datagram))) := by
  have htake := take_strlen (receiveBuf (some datagram))
  simp only [receiveDataIteration, receiveBufSize, Int.toNat_natCast, htake]
  rcases Nat.eq_zero_or_pos (strlen (receiveBuf (some datagram))) with h | h
  · have hnil : cstr (receiveBuf (some datagram)) = [] :=
      List.length_eq_zero_iff.mp h
    rw [hnil]
    simp
  · rw [if_pos (Int.natCast_pos.mpr h)]

theorem cstr_receiveBuf_empty (behind : Bytes) :
    cstr (receiveBuf (some (datagramOf (0 :: behind)))) = [] := rfl

/-!
## Every interleaving

The output is what has been received, what is under way, and what is still in
the pipe.
-/

def chunkDatagram (chunk : Bytes) : Bytes :=
  datagramOf (readData chunk)

inductive Stage (inFlight : List Bytes) (s : Response) : Prop where
  | sending (hended : s.ended = false) (hreturned : s.returned = false)
      (hnetwork : s.network = inFlight.map chunkDatagram)
  | ending (behind : Bytes) (hended : s.ended = true) (hpipe : s.pipe = [])
      (hreturned : s.returned = false)
      (hnetwork :
        s.network = inFlight.map chunkDatagram ++ [datagramOf (0 :: behind)])
  | closed (hended : s.ended = true) (hpipe : s.pipe = [])
      (hreturned : s.returned = true) (hinFlight : inFlight = [])
      (hnetwork : s.network = [])

theorem Stage.network_of_sending {inFlight : List Bytes} {s : Response}
    (h : Stage inFlight s) (hended : s.ended = false) :
    s.returned = false ∧ s.network = inFlight.map chunkDatagram := by
  cases h with
  | sending _ hreturned hnetwork => exact ⟨hreturned, hnetwork⟩
  | ending behind hended' hpipe hreturned hnetwork =>
      rw [hended] at hended'
      cases hended'
  | closed hended' hpipe hreturned hinFlight hnetwork =>
      rw [hended] at hended'
      cases hended'

structure Delivery (output : Bytes) (got inFlight : List Bytes)
    (s : Response) : Prop where
  whole : (got ++ inFlight).flatten ++ s.pipe = output
  chunks : forall chunk, chunk ∈ got ++ inFlight ->
    chunk ≠ [] ∧ chunk.length ≤ BUFSZ
  written : s.stdout = (got.map (fun chunk => chunk.take (BUFSZ - 1))).flatten
  stage : Stage inFlight s

theorem Delivery.start (output : Bytes) :
    Delivery output [] [] (Response.start output) where
  whole := rfl
  chunks := by simp
  written := rfl
  stage := Stage.sending rfl rfl rfl

theorem Delivery.read {output : Bytes} {got inFlight : List Bytes}
    {s s' : Response} {size : Nat} (h : Delivery output got inFlight s)
    (hstep : respond s (ResponseEvent.read size) = some s') :
    exists chunk, chunk.length = size ∧
      Delivery output got (inFlight ++ [chunk]) s' := by
  simp only [respond] at hstep
  split at hstep
  · rename_i hguard
    rcases hguard with ⟨hended, hpos, hsize, hle⟩
    cases hstep
    have hlength : (s.pipe.take size).length = size := by
      rw [List.length_take]
      exact min_eq_left hle
    refine ⟨s.pipe.take size, hlength, ?_, ?_, h.written, ?_⟩
    · rw [← h.whole]
      simp [List.take_append_drop]
    · intro chunk hchunk
      rw [← List.append_assoc] at hchunk
      rcases List.mem_append.mp hchunk with hold | hnew
      · exact h.chunks chunk hold
      · rw [List.mem_singleton.mp hnew]
        refine ⟨?_, by rw [hlength]; exact hsize⟩
        intro hnil
        rw [hnil] at hlength
        exact Nat.ne_of_gt hpos hlength.symm
    · rcases h.stage.network_of_sending hended with ⟨hreturned, hnetwork⟩
      refine Stage.sending hended hreturned ?_
      rw [List.map_append, ← hnetwork]
      rfl
  · cases hstep

theorem Delivery.finish {output : Bytes} {got inFlight : List Bytes}
    {s s' : Response} {behind : Bytes} (h : Delivery output got inFlight s)
    (hstep : respond s (ResponseEvent.finish behind) = some s') :
    Delivery output got inFlight s' := by
  simp only [respond] at hstep
  split at hstep
  · rename_i hguard
    rcases hguard with ⟨hended, hpipe⟩
    cases hstep
    refine ⟨h.whole, h.chunks, h.written, ?_⟩
    rcases h.stage.network_of_sending hended with ⟨hreturned, hnetwork⟩
    refine Stage.ending behind rfl hpipe hreturned ?_
    rw [← hnetwork]
  · cases hstep

theorem receiveDataIteration_chunk {chunk : Bytes} (hnonempty : chunk ≠ [])
    (hshort : chunk.length ≤ BUFSZ) (h : Maskable chunk) (stdout : Bytes) :
    exists size, size ≠ 0 ∧
      receiveDataIteration stdout (some (chunkDatagram chunk)) =
        (size, stdout ++ chunk.take (BUFSZ - 1)) := by
  have hcstr := cstr_receiveBuf_chunk hnonempty hshort h
  refine ⟨(strlen (receiveBuf (some (chunkDatagram chunk))) : Int), ?_, ?_⟩
  · have hpos := List.length_pos_iff.mpr hnonempty
    rw [strlen, chunkDatagram, hcstr, List.length_take]
    simp only [BUFSZ]
    lia
  · rw [receiveDataIteration_some, chunkDatagram, hcstr]

theorem Delivery.receive_chunk {output : Bytes} (hout : Maskable output)
    {got inFlight : List Bytes} {chunk : Bytes} {s s' : Response}
    {network : List Bytes} (h : Delivery output got (chunk :: inFlight) s)
    (hreturned : s.returned = false)
    (hnetwork : s.network = chunkDatagram chunk :: network)
    (hstep : respond s ResponseEvent.receive = some s') :
    s' = { s with
      network := network
      stdout := s.stdout ++ chunk.take (BUFSZ - 1) } := by
  have hmem : chunk ∈ got ++ chunk :: inFlight := by simp
  have hmaskable : Maskable chunk := by
    apply hout.of_subset
    rw [← h.whole]
    intro b hb
    exact List.mem_append_left _ (List.mem_flatten.mpr ⟨chunk, hmem, hb⟩)
  rcases receiveDataIteration_chunk (h.chunks chunk hmem).left
    (h.chunks chunk hmem).right hmaskable s.stdout with ⟨size, hsize, hiter⟩
  simp only [respond, hreturned, hnetwork, hiter, decide_eq_false hsize] at hstep
  cases hstep
  rw [← hreturned]

theorem Delivery.advance {output : Bytes} {got inFlight : List Bytes}
    {chunk : Bytes} {network : List Bytes} {s : Response}
    (h : Delivery output got (chunk :: inFlight) s)
    (hstage : Stage inFlight
      { s with
        network := network
        stdout := s.stdout ++ chunk.take (BUFSZ - 1) }) :
    Delivery output (got ++ [chunk]) inFlight
      { s with
        network := network
        stdout := s.stdout ++ chunk.take (BUFSZ - 1) } where
  whole := by
    rw [← h.whole]
    simp
  chunks := by
    rw [List.append_assoc]
    exact h.chunks
  written := by
    rw [h.written]
    simp
  stage := hstage

theorem Delivery.receive {output : Bytes} (hout : Maskable output)
    {got inFlight : List Bytes} {s s' : Response}
    (h : Delivery output got inFlight s)
    (hstep : respond s ResponseEvent.receive = some s') :
    exists got' inFlight', got' ++ inFlight' = got ++ inFlight ∧
      Delivery output got' inFlight' s' := by
  cases h.stage with
  | sending hended hreturned hnetwork =>
      cases hrest : inFlight with
      | nil =>
          rw [hrest, List.map_nil] at hnetwork
          simp only [respond, hreturned, hnetwork] at hstep
          cases hstep
      | cons chunk rest =>
          rw [hrest] at h hnetwork
          rw [h.receive_chunk hout hreturned hnetwork hstep]
          exact ⟨got ++ [chunk], rest, by simp,
            h.advance (Stage.sending hended hreturned rfl)⟩
  | ending behind hended hpipe hreturned hnetwork =>
      cases hrest : inFlight with
      | nil =>
          rw [hrest] at h hnetwork
          simp only [respond, hreturned, hnetwork, List.map_nil,
            List.nil_append, receiveDataIteration_some,
            cstr_receiveBuf_empty, List.append_nil] at hstep
          cases hstep
          exact ⟨got, [], rfl, h.whole, h.chunks, h.written,
            Stage.closed hended hpipe rfl rfl rfl⟩
      | cons chunk rest =>
          rw [hrest] at h hnetwork
          rw [h.receive_chunk hout hreturned hnetwork hstep]
          exact ⟨got ++ [chunk], rest, by simp,
            h.advance (Stage.ending behind hended hpipe hreturned rfl)⟩
  | closed hended hpipe hreturned hinFlight hnetwork =>
      simp only [respond, hreturned] at hstep
      cases hstep

theorem Delivery.run {output : Bytes} (hout : Maskable output)
    {events : List ResponseEvent} {got inFlight : List Bytes} {s s' : Response}
    (h : Delivery output got inFlight s)
    (hrun : run respond s events = some s') :
    exists got' inFlight',
      (got' ++ inFlight').map List.length =
        (got ++ inFlight).map List.length ++ readSizes events ∧
      Delivery output got' inFlight' s' := by
  induction events generalizing got inFlight s with
  | nil =>
      cases hrun
      exact ⟨got, inFlight, by simp [readSizes], h⟩
  | cons e events ih =>
      rcases run_cons_eq_some hrun with ⟨mid, hstep, hrest⟩
      cases e with
      | read size =>
          rcases h.read hstep with ⟨chunk, hlength, hmid⟩
          rcases ih hmid hrest with ⟨got', inFlight', hsizes, h'⟩
          refine ⟨got', inFlight', ?_, h'⟩
          rw [hsizes]
          simp [readSizes, hlength]
      | finish behind => exact ih (h.finish hstep) hrest
      | receive =>
          rcases h.receive hout hstep with ⟨got1, inFlight1, hsame, hmid⟩
          rcases ih hmid hrest with ⟨got', inFlight', hsizes, h'⟩
          refine ⟨got', inFlight', ?_, h'⟩
          rw [hsizes, hsame]
          rfl

/-!
## The whole response
-/

theorem mem_readSizes {size : Nat} {events : List ResponseEvent} :
    size ∈ readSizes events <-> ResponseEvent.read size ∈ events := by
  rw [readSizes, List.mem_filterMap]
  constructor
  · intro h
    rcases h with ⟨e, hmem, he⟩
    cases e with
    | read size' =>
        injection he with he
        rw [← he]
        exact hmem
    | finish behind => cases he
    | receive => cases he
  · intro h
    exact ⟨ResponseEvent.read size, h, rfl⟩

/-- `receive_data` returns with the empty message, and the response is whole
exactly when no `read` returned a chunk of `BUFSZ` bytes. -/
theorem response_whole_iff {output : Bytes} {events : List ResponseEvent}
    {s : Response} (hout : Maskable output)
    (hrun : run respond (Response.start output) events = some s) :
    (s.returned = true <-> s.ended = true ∧ s.network = []) ∧
      (s.returned = true ->
        (s.stdout = output <->
          forall size, ResponseEvent.read size ∈ events -> size ≠ BUFSZ)) := by
  rcases (Delivery.start output).run hout hrun with
    ⟨got, inFlight, hsizes, hdelivery⟩
  constructor
  · cases hdelivery.stage with
    | sending hended hreturned hnetwork =>
        rw [hended, hreturned]
        simp
    | ending behind hended hpipe hreturned hnetwork =>
        rw [hreturned, hnetwork]
        simp
    | closed hended hpipe hreturned hinFlight hnetwork =>
        rw [hended, hreturned, hnetwork]
        simp
  · intro hreturned
    cases hdelivery.stage with
    | sending hended hreturned' hnetwork =>
        rw [hreturned'] at hreturned
        cases hreturned
    | ending behind hended hpipe hreturned' hnetwork =>
        rw [hreturned'] at hreturned
        cases hreturned
    | closed hended hpipe hreturned' hinFlight hnetwork =>
        have hwhole := hdelivery.whole
        have hchunks := hdelivery.chunks
        rw [hinFlight, List.append_nil] at hsizes hwhole hchunks
        rw [hpipe, List.append_nil] at hwhole
        change got.map List.length = readSizes events at hsizes
        rw [hdelivery.written, ← hwhole, flatten_take_eq_iff]
        constructor
        · intro h size hread
          rcases List.mem_map.mp (hsizes ▸ mem_readSizes.mpr hread) with
            ⟨chunk, hchunk, hlength⟩
          have hle := h chunk hchunk
          simp only [BUFSZ] at *
          lia
        · intro h chunk hchunk
          have hmem : chunk.length ∈ readSizes events := by
            rw [← hsizes]
            exact List.mem_map_of_mem hchunk
          have hne := h chunk.length (mem_readSizes.mp hmem)
          have hle := (hchunks chunk hchunk).right
          simp only [BUFSZ] at *
          lia

theorem response_whole_iff_short :
    exists s,
      run respond (Response.start (text ['o', 'k', '!']))
          [ResponseEvent.read 1, ResponseEvent.read 2, ResponseEvent.receive,
            ResponseEvent.finish [7], ResponseEvent.receive,
            ResponseEvent.receive] = some s ∧
        s.stdout = text ['o', 'k', '!'] := by
  have hrun : exists s,
      run respond (Response.start (text ['o', 'k', '!']))
          [ResponseEvent.read 1, ResponseEvent.read 2, ResponseEvent.receive,
            ResponseEvent.finish [7], ResponseEvent.receive,
            ResponseEvent.receive] = some s ∧ s.returned = true := by
    decide +kernel
  rcases hrun with ⟨s, hrun, hreturned⟩
  have hout : Maskable (text ['o', 'k', '!']) := by decide
  refine ⟨s, hrun, ((response_whole_iff hout hrun).right hreturned).mpr ?_⟩
  intro size hread
  simp only [List.mem_cons, List.not_mem_nil, reduceCtorEq, or_false,
    ResponseEvent.read.injEq] at hread
  simp only [BUFSZ]
  lia

theorem last_byte_lost :
    exists s,
      run respond (Response.start (List.replicate 256 97))
          [ResponseEvent.read 256, ResponseEvent.finish [],
            ResponseEvent.receive, ResponseEvent.receive] = some s ∧
        Maskable (List.replicate 256 97) ∧ s.returned = true ∧
        s.stdout = List.replicate 255 97 ∧
        s.stdout ≠ List.replicate 256 97 := by
  have hrun : exists s,
      run respond (Response.start (List.replicate 256 97))
          [ResponseEvent.read 256, ResponseEvent.finish [],
            ResponseEvent.receive, ResponseEvent.receive] = some s ∧
        s.returned = true ∧ s.stdout = List.replicate 255 97 := by
    decide +kernel
  rcases hrun with ⟨s, hrun, hreturned, hstdout⟩
  refine ⟨s, hrun, ?_, hreturned, hstdout, ?_⟩
  · intro b hb
    rw [List.eq_of_mem_replicate hb]
    decide
  · intro h
    rw [hstdout] at h
    have hlength := congrArg List.length h
    rw [List.length_replicate, List.length_replicate] at hlength
    exact absurd hlength (by decide)

end Socket
end UnixPrograms
