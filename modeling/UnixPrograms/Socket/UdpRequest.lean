import UnixPrograms.Socket.Client
import UnixPrograms.Socket.UdpResponse

/-!
# The request over UDP

A typed line becomes one or several requests.  Each of them goes through
`send_buf`, a datagram, `receive_buf` and `separate_buffer`, and arrives as the
piece of the line it was built from.
-/

namespace UnixPrograms
namespace Socket

open Foundation

/-- The calls of `get_str` while the input lasts, one for each previous content
of the request buffer. -/
def getStrs (clientId : Bytes) : List Bytes -> Bytes -> List Typed × Bytes
  | [], input => ([], input)
  | buffer :: stale, input =>
      match getStr clientId buffer input with
      | none => ([], input)
      | some typed =>
          let (more, rest) := getStrs clientId stale typed.input
          (typed :: more, rest)

def serverData (request data : Bytes) : Bytes :=
  (separateBuffer (receiveBuf (some (datagramOf request))) data).2

/-- A line as it is typed: neither zeros nor the mask, and one newline, at its
end. -/
structure IsLine (line : Bytes) : Prop where
  maskable : Maskable line
  ended : exists content, line = content ++ [10] ∧ 10 ∉ content

/-- The memory at `client_id`: a header of digits and a terminator. -/
structure IsClientId (clientId : Bytes) : Prop where
  digits : forall b, b ∈ cstr clientId -> isDigit b = true
  length : (cstr clientId).length = IDSZ

/-!
## One request
-/

theorem Maskable.of_digits {digits : Bytes}
    (h : forall b, b ∈ digits -> isDigit b = true) : Maskable digits := by
  intro b hb
  have hdigit := h b hb
  constructor
  · intro heq
    rw [heq] at hdigit
    cases hdigit
  · intro heq
    rw [heq] at hdigit
    cases hdigit

theorem Maskable.append {s t : Bytes} (hs : Maskable s) (ht : Maskable t) :
    Maskable (s ++ t) := by
  intro b hb
  rcases List.mem_append.mp hb with hb | hb
  · exact hs b hb
  · exact ht b hb

theorem headOf_take {s : Bytes} (h : NoNul s) {n : Nat} (hlength : s.length ≤ n)
    (rest : Bytes) : headOf 0 ((s ++ 0 :: rest).take n) = s := by
  rw [List.take_append, List.take_of_length_le hlength]
  cases hcount : n - s.length with
  | zero =>
      rw [List.take_zero, List.append_nil]
      exact cstr_of_noNul h
  | succ count => exact cstr_append_zero h _

theorem receiveBuf_string {s : Bytes} (h : Maskable s)
    (hlength : s.length ≤ BUFSZ - 1) (rest : Bytes) :
    exists rest',
      receiveBuf (some (datagramOf (s ++ 0 :: rest))) = s ++ 0 :: rest' := by
  have htake :
      (datagramOf (s ++ 0 :: rest)).take (BUFSZ - 1) =
        (masked s ++ 0 :: rest).take (BUFSZ - 1) := by
    rw [datagramOf, encode_append_zero h.noNul, List.take_take]
    rfl
  have hhead :
      headOf 0 ((masked s ++ 0 :: rest).take (BUFSZ - 1)) = masked s :=
    headOf_take h.masked (by rw [masked_length]; exact hlength) rest
  rw [receiveBuf_datagram, htake, decodedPiece]
  have hshort :
      ((masked s ++ 0 :: rest).take (BUFSZ - 1)).length ≤ BUFSZ - 1 :=
    List.length_take_le _ _
  have hcount : BUFSZ - ((masked s ++ 0 :: rest).take (BUFSZ - 1)).length =
      BUFSZ - 1 - ((masked s ++ 0 :: rest).take (BUFSZ - 1)).length + 1 := by
    unfold BUFSZ at hshort ⊢
    lia
  rw [hcount]
  rcases padded_piece ((masked s ++ 0 :: rest).take (BUFSZ - 1))
    (BUFSZ - 1 - ((masked s ++ 0 :: rest).take (BUFSZ - 1)).length) with
    ⟨rest', hrest'⟩
  rw [hrest', hhead, decode, encode_append_zero h.masked, masked_masked]
  exact ⟨rest', rfl⟩

structure Arrives (typed : Typed) : Prop where
  fits : strlen typed.request + 1 ≤ BUFSZ
  arrives : forall data, cstr (serverData typed.request data) = typed.piece

theorem arrives_of_request {typed : Typed} {header stale : Bytes}
    (hheader : Maskable header) (hlength : header.length = IDSZ)
    (hpiece : Maskable typed.piece)
    (hshort : typed.piece.length ≤ BUFSZ - IDSZ - 1)
    (hrequest : typed.request = snprintf stale (header ++ typed.piece) BUFSZ) :
    Arrives typed := by
  have hmask := hheader.append hpiece
  have hfits : (header ++ typed.piece).length ≤ BUFSZ - 1 := by
    rw [List.length_append, hlength]
    unfold BUFSZ IDSZ at *
    lia
  have hwhole : (header ++ typed.piece).take (BUFSZ - 1) = header ++ typed.piece :=
    List.take_of_length_le hfits
  constructor
  case fits =>
    rw [hrequest, strlen, cstr_snprintf hmask.noNul, hwhole]
    unfold BUFSZ at *
    lia
  case arrives =>
    intro data
    rw [hrequest, snprintf, hwhole, serverData, cstr_separateBuffer]
    rcases receiveBuf_string hmask hfits
      (stale.drop ((header ++ typed.piece).length + 1)) with ⟨rest, hrest⟩
    rw [hrest, List.append_assoc, List.drop_left' hlength]
    exact cstr_append_zero hpiece.noNul rest

/-!
## The pieces of a line
-/

theorem fgets_split {size : Nat} {input read rest : Bytes}
    (h : fgets size input = some (read, rest)) :
    input = read ++ rest ∧ read.length ≤ size - 1 ∧
      (1 < size -> rest.length < input.length) := by
  unfold fgets at h
  split at h
  · cases h
  · rename_i hne
    injection h with h
    injection h with hread hrest
    rw [← hread, ← hrest]
    constructor
    · exact (List.take_append_drop _ _).symm
    · constructor
      · exact le_trans (List.length_take_le _ _) (min_le_left _ _)
      · intro hsize
        have hpos : 0 < input.length := List.length_pos_iff.mpr hne
        rw [List.length_drop]
        lia

theorem getStr_spec {clientId buffer input : Bytes} {typed : Typed}
    (hid : IsClientId clientId) (hinput : Maskable input)
    (h : getStr clientId buffer input = some typed) :
    Arrives typed ∧ input = typed.piece ++ typed.input := by
  unfold getStr at h
  cases hread : fgets (BUFSZ - IDSZ) input with
  | none =>
      rw [hread] at h
      cases h
  | some pair =>
      rcases pair with ⟨read, rest⟩
      rw [hread] at h
      injection h with h
      rcases fgets_split hread with ⟨hsplit, hlength, _⟩
      have hmask : Maskable read := by
        intro b hb
        exact hinput b (by rw [hsplit]; exact List.mem_append_left rest hb)
      have hcount : BUFSZ - IDSZ - read.length =
          BUFSZ - IDSZ - 1 - read.length + 1 := by
        unfold BUFSZ IDSZ at *
        lia
      have hpiece :
          cstr (read ++ zeros (BUFSZ - IDSZ - read.length)) = read := by
        rw [hcount]
        exact cstr_append_zero hmask.noNul _
      rw [hpiece] at h
      rw [← h]
      constructor
      · exact arrives_of_request (Maskable.of_digits hid.digits) hid.length
          hmask hlength rfl
      · exact hsplit

theorem getStr_some (clientId buffer : Bytes) {input : Bytes} (h : input ≠ []) :
    exists typed, getStr clientId buffer input = some typed ∧
      typed.input.length < input.length := by
  have hread : exists pair, fgets (BUFSZ - IDSZ) input = some pair := by
    unfold fgets
    rw [if_neg h]
    exact ⟨_, rfl⟩
  rcases hread with ⟨⟨read, rest⟩, hread⟩
  unfold getStr
  rw [hread]
  exact ⟨_, rfl, (fgets_split hread).right.right (by decide)⟩

theorem getStrs_spec {clientId : Bytes} (hid : IsClientId clientId)
    {stale : List Bytes} {input : Bytes} (hinput : Maskable input) :
    (forall typed, typed ∈ (getStrs clientId stale input).1 -> Arrives typed) ∧
      ((getStrs clientId stale input).1.map Typed.piece).flatten ++
        (getStrs clientId stale input).2 = input ∧
      (input.length ≤ stale.length -> (getStrs clientId stale input).2 = []) := by
  induction stale generalizing input with
  | nil =>
      constructor
      · intro typed h
        cases h
      · constructor
        · rfl
        · intro hlength
          exact List.length_eq_zero_iff.mp (Nat.le_zero.mp hlength)
  | cons buffer stale ih =>
      rw [getStrs]
      cases hcall : getStr clientId buffer input with
      | none =>
          have hnil : input = [] := by
            by_contra hne
            rcases getStr_some clientId buffer hne with ⟨typed, hsome, _⟩
            rw [hcall] at hsome
            cases hsome
          constructor
          · intro typed h
            cases h
          · constructor
            · rfl
            · intro _
              exact hnil
      | some typed =>
          rcases getStr_spec hid hinput hcall with ⟨harrives, hsplit⟩
          have hrest : Maskable typed.input := by
            intro b hb
            exact hinput b (by rw [hsplit]; exact List.mem_append_right _ hb)
          rcases ih hrest with ⟨hall, hwhole, hend⟩
          constructor
          · intro other h
            rcases List.mem_cons.mp h with heq | hmem
            · rw [heq]
              exact harrives
            · exact hall other hmem
          · constructor
            · show (typed.piece ++
                ((getStrs clientId stale typed.input).1.map Typed.piece).flatten) ++
                  (getStrs clientId stale typed.input).2 = input
              rw [List.append_assoc, hwhole, ← hsplit]
            · intro hlength
              apply hend
              have hne : input ≠ [] := by
                intro hnil
                rw [hnil] at hcall
                cases hcall
              rcases getStr_some clientId buffer hne with ⟨typed', hsome, hlt⟩
              rw [hcall] at hsome
              injection hsome with hsome
              rw [← hsome] at hlt
              rw [List.length_cons] at hlength
              lia

/-- Each request of a line fits its buffer and arrives as its piece, and the
texts that arrive are the line. -/
theorem request_survives {clientId line : Bytes} {stale : List Bytes}
    (hid : IsClientId clientId) (hline : IsLine line) :
    (forall typed, typed ∈ (getStrs clientId stale line).1 ->
        strlen typed.request + 1 ≤ BUFSZ ∧
          forall data, cstr (serverData typed.request data) = typed.piece) ∧
      ((getStrs clientId stale line).1.map Typed.piece).flatten ++
        (getStrs clientId stale line).2 = line ∧
      (line.length ≤ stale.length ->
        (getStrs clientId stale line).2 = [] ∧
          forall data, ((getStrs clientId stale line).1.map
            (fun typed => cstr (serverData typed.request data))).flatten =
              line) := by
  rcases @getStrs_spec clientId hid stale line hline.maskable with
    ⟨hall, hwhole, hend⟩
  constructor
  · intro typed h
    exact ⟨(hall typed h).fits, (hall typed h).arrives⟩
  · constructor
    · exact hwhole
    · intro hlength
      constructor
      · exact hend hlength
      · intro data
        have hpieces :
            (getStrs clientId stale line).1.map
                (fun typed => cstr (serverData typed.request data)) =
              (getStrs clientId stale line).1.map Typed.piece :=
          List.map_congr_left (fun typed h => (hall typed h).arrives data)
        rw [hend hlength, List.append_nil] at hwhole
        rw [hpieces, hwhole]

theorem request_survives_ls :
    ((getStrs (text ['0', '0', '0', '0', '0', '0', '0', '0', '4', '2'] ++ [0])
        [List.replicate 256 7, [], []] (text ['l', 's'] ++ [10])).1.map
      (fun typed => cstr (serverData typed.request []))).flatten =
        text ['l', 's'] ++ [10] := by
  have hdigits :
      (cstr (text ['0', '0', '0', '0', '0', '0', '0', '0', '4', '2'] ++
        [0])).all isDigit = true := by
    decide
  have hid : IsClientId
      (text ['0', '0', '0', '0', '0', '0', '0', '0', '4', '2'] ++ [0]) :=
    ⟨List.all_eq_true.mp hdigits, by decide⟩
  have hline : IsLine (text ['l', 's'] ++ [10]) :=
    ⟨by decide, text ['l', 's'], rfl, by decide⟩
  exact ((request_survives hid hline).right.right (by decide)).right []

end Socket
end UnixPrograms
