import UnixPrograms.Foundation.Accesses
import UnixPrograms.Socket.Client
import UnixPrograms.Socket.Terminators

/-!
# The arrays around the header

What `get_id`, `get_str` and `separate_buffer` store into their arrays, byte by
byte, and the arrays on which they call string functions.  A header of `IDSZ`
digits fills its array, and its terminator comes behind it.
-/

namespace UnixPrograms
namespace Socket

open Foundation

inductive Field where
  | clientId
  | tmpId
  | tmpBuf
  | buffer
  | clientIdStr
  | data
deriving DecidableEq

def Field.size : Field -> Nat
  | Field.clientId | Field.tmpId | Field.clientIdStr => IDSZ
  | Field.tmpBuf => BUFSZ - IDSZ
  | Field.buffer | Field.data => BUFSZ

def snprintfCount (s : Bytes) (n : Nat) : Nat :=
  (s.take (n - 1)).length + 1

def getIdAccesses (id : Nat) : List (Access Field) :=
  let tmpId := snprintf (zeros IDSZ) (decimal id) IDSZ
  -- `char tmp_id[IDSZ] = {0}`
  bytesAt Field.tmpId 0 IDSZ ++
    bytesAt Field.tmpId 0 (snprintfCount (decimal id) IDSZ) ++
    -- `memset(client_id, '0', IDSZ)`
    bytesAt Field.clientId 0 IDSZ ++
    [Access.string Field.tmpId tmpId, Access.string Field.tmpId tmpId] ++
    bytesAt Field.clientId (IDSZ - strlen tmpId) (snprintfCount (cstr tmpId) IDSZ)

/-- `clientId` is the memory from `client_id` on. -/
def getStrAccesses (clientId input : Bytes) : List (Access Field) :=
  bytesAt Field.tmpBuf 0 (BUFSZ - IDSZ) ++
    match fgets (BUFSZ - IDSZ) input with
    | none => []
    | some (read, _) =>
        let tmpBuf := read ++ zeros (BUFSZ - IDSZ - read.length)
        bytesAt Field.tmpBuf 0 (read.length + 1) ++
          [Access.string Field.clientId (clientId.take IDSZ),
            Access.string Field.tmpBuf tmpBuf] ++
          bytesAt Field.buffer 0
            (snprintfCount (cstr clientId ++ cstr tmpBuf) BUFSZ) ++
          -- `get_command`
          [Access.string Field.tmpBuf tmpBuf]

def separateBufferAccesses (buffer : Bytes) : List (Access Field) :=
  bytesAt Field.clientIdStr 0 IDSZ ++
    -- `strncpy` pads what it copies
    bytesAt Field.clientIdStr 0 IDSZ ++
    [Access.string Field.clientIdStr (strncpy (zeros IDSZ) buffer IDSZ)] ++
    bytesAt Field.data 0 (strlen (buffer.drop IDSZ) + 1)

def receivedBuffer (recv : Option (Relay.Chunk (BUFSZ - 1))) : Bytes :=
  (Relay.receiveBuf
    { data := zeros BUFSZ
      uses := [] } recv).2.data

/-- The three functions, one after the other, on an id, an input and a received
message. -/
structure HeaderFieldsInBounds (id : Nat) (behind input : Bytes)
    (recv : Option (Relay.Chunk (BUFSZ - 1))) : Prop where
  draws : AllInside Field.size (getIdAccesses id)
  types : AllInside Field.size (getStrAccesses (getId id behind) input)
  separates : AllInside Field.size (separateBufferAccesses (receivedBuffer recv))

/-!
## What `snprintf` stores
-/

theorem snprintfCount_le (s : Bytes) {n : Nat} (h : 0 < n) :
    snprintfCount s n ≤ n := by
  have htake : (s.take (n - 1)).length ≤ n - 1 := List.length_take_le _ _
  unfold snprintfCount
  lia

/-!
## The three functions
-/

theorem getId_inside_iff {id : Nat} {access : Access Field}
    (h : access ∈ getIdAccesses id) :
    access.Inside Field.size <-> access ≠ Access.byte Field.clientId IDSZ := by
  have htmp : cstr (snprintf (zeros IDSZ) (decimal id) IDSZ) = keptDigits id :=
    cstr_snprintf (NoNul.of_digits (fun b => isDigit_decimal)) _ _
  have hends : 0 ∈ snprintf (zeros IDSZ) (decimal id) IDSZ :=
    List.mem_append_right _ List.mem_cons_self
  have hlength := keptDigits_length id
  have hcount : snprintfCount (keptDigits id) IDSZ = (keptDigits id).length + 1 := by
    unfold snprintfCount
    rw [List.take_of_length_le hlength]
  have hinside : access.Inside Field.size ->
      access ≠ Access.byte Field.clientId IDSZ := by
    intro hin heq
    rw [heq] at hin
    exact absurd hin (by decide)
  refine ⟨hinside, fun hne => ?_⟩
  simp only [getIdAccesses, strlen, htmp, hcount, List.mem_append] at h
  rcases h with (((h | h) | h) | h) | h
  · exact bytesAt_inside (by decide) access h
  · refine bytesAt_inside ?_ access h
    rw [Nat.zero_add]
    exact snprintfCount_le _ (by decide)
  · exact bytesAt_inside (by decide) access h
  · have hstring : access =
        Access.string Field.tmpId (snprintf (zeros IDSZ) (decimal id) IDSZ) := by
      simpa using h
    rw [hstring]
    exact hends
  · rcases mem_bytesAt.mp h with ⟨i, hlt, heq⟩
    have hindex : IDSZ - (keptDigits id).length + i ≠ IDSZ := by
      intro hcontra
      rw [hcontra] at heq
      exact hne heq
    rw [heq]
    show IDSZ - (keptDigits id).length + i < IDSZ
    unfold IDSZ at *
    lia

theorem terminator_stored (id : Nat) :
    Access.byte Field.clientId IDSZ ∈ getIdAccesses id := by
  have htmp : cstr (snprintf (zeros IDSZ) (decimal id) IDSZ) = keptDigits id :=
    cstr_snprintf (NoNul.of_digits (fun b => isDigit_decimal)) _ _
  have hlength := keptDigits_length id
  apply List.mem_append_right
  rw [mem_bytesAt]
  refine ⟨(keptDigits id).length, ?_, ?_⟩
  · rw [htmp, snprintfCount, List.take_of_length_le hlength]
    exact Nat.lt_succ_self _
  · rw [strlen, htmp]
    unfold IDSZ at *
    congr 1
    lia

theorem header_unterminated (id : Nat) (behind : Bytes) :
    0 ∉ (getId id behind).take IDSZ := by
  have htake : (getId id behind).take IDSZ = cstr (getId id behind) := by
    rw [← header_length id behind]
    exact take_strlen _
  rw [htake]
  exact fun hmem => noNul_cstr _ 0 hmem rfl

theorem getStr_inside_iff (id : Nat) (behind input : Bytes) :
    AllInside Field.size (getStrAccesses (getId id behind) input) <-> input = [] := by
  unfold getStrAccesses
  rw [allInside_append]
  constructor
  · rintro ⟨_, hinside⟩
    cases hread : fgets (BUFSZ - IDSZ) input with
    | none =>
        unfold fgets at hread
        split at hread
        case isTrue hnil => exact hnil
        case isFalse _ => cases hread
    | some found =>
        rcases found with ⟨read, rest⟩
        rw [hread] at hinside
        have hheader : Access.Inside Field.size
            (Access.string Field.clientId ((getId id behind).take IDSZ)) := by
          apply hinside
          simp
        exact absurd hheader (header_unterminated id behind)
  · intro hnil
    rw [hnil]
    refine ⟨bytesAt_inside (by decide), fun access hmem => ?_⟩
    cases hmem

theorem mem_strncpy_iff (src : Bytes) :
    0 ∈ strncpy (zeros IDSZ) src IDSZ <-> strlen src < IDSZ := by
  have hnot : 0 ∉ (cstr src).take IDSZ := by
    intro hmem
    exact noNul_cstr src 0 (List.mem_of_mem_take hmem) rfl
  have hrest : (zeros IDSZ).drop IDSZ = [] := rfl
  rw [strncpy, hrest, List.append_nil, List.mem_append, or_iff_right hnot, zeros,
    List.mem_replicate]
  constructor
  · rintro ⟨hne, _⟩
    lia
  · intro hlt
    exact ⟨by lia, rfl⟩

theorem separateBuffer_inside_iff {buffer : Bytes} (h : buffer.length ≤ BUFSZ) :
    AllInside Field.size (separateBufferAccesses buffer) <-> strlen buffer < IDSZ := by
  have hstring : strlen (buffer.drop IDSZ) ≤ (buffer.drop IDSZ).length :=
    (List.takeWhile_prefix _).length_le
  have hdata : AllInside Field.size
      (bytesAt Field.data 0 (strlen (buffer.drop IDSZ) + 1)) := by
    apply bytesAt_inside
    rw [List.length_drop] at hstring
    show 0 + (strlen (buffer.drop IDSZ) + 1) ≤ BUFSZ
    unfold BUFSZ IDSZ at *
    lia
  have hfirst : AllInside Field.size (bytesAt Field.clientIdStr 0 IDSZ) :=
    bytesAt_inside (by decide)
  unfold separateBufferAccesses
  rw [allInside_append, allInside_append, allInside_append, allInside_singleton,
    and_iff_left hdata, and_iff_right ⟨hfirst, hfirst⟩]
  exact mem_strncpy_iff buffer

theorem receivedBuffer_sealed (recv : Option (Relay.Chunk (BUFSZ - 1))) :
    Relay.Sealed (receivedBuffer recv) :=
  (Relay.receiveBuf_sealed recv).left

/-- No id, input and message keep all three functions inside their arrays:
`get_id` stores one byte behind `client_id` whatever it draws, `get_str` reads
behind it for every line, and `separate_buffer` reads behind `client_id_str`
for every message of at least `IDSZ` bytes. -/
theorem header_fields_overrun (id : Nat) (behind input : Bytes)
    (recv : Option (Relay.Chunk (BUFSZ - 1))) :
    ¬ HeaderFieldsInBounds id behind input recv ∧
      (forall access, access ∈ getIdAccesses id ->
        (¬ access.Inside Field.size <-> access = Access.byte Field.clientId IDSZ)) ∧
      Access.byte Field.clientId IDSZ ∈ getIdAccesses id ∧
      (AllInside Field.size (getStrAccesses (getId id behind) input) <-> input = []) ∧
      (AllInside Field.size (separateBufferAccesses (receivedBuffer recv)) <->
        strlen (receivedBuffer recv) < IDSZ) := by
  have hstored := terminator_stored id
  constructor
  · intro h
    exact (getId_inside_iff hstored).mp (h.draws _ hstored) rfl
  constructor
  · intro access hmem
    rw [getId_inside_iff hmem, not_not]
  · exact ⟨hstored, getStr_inside_iff id behind input,
      separateBuffer_inside_iff (receivedBuffer_sealed recv).length.le⟩

theorem header_fields_overrun_small :
    ¬ Access.Inside Field.size (Access.byte Field.clientId IDSZ) ∧
      Access.byte Field.clientId IDSZ ∈ getIdAccesses 42 ∧
      ¬ AllInside Field.size (getStrAccesses (getId 42 [1]) (LS ++ [10])) ∧
      ¬ HeaderFieldsInBounds 42 [1] (LS ++ [10]) none := by
  have hterminator : ¬ AllInside Field.size (getIdAccesses 42) := by
    decide +kernel
  refine ⟨by decide, by decide +kernel, by decide +kernel, ?_⟩
  intro h
  exact hterminator h.draws

end Socket
end UnixPrograms
