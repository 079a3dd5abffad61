import UnixPrograms.Foundation.Decimal
import UnixPrograms.Socket.Lib

/-!
# The client's requests

`get_id` and `get_str` of `client.c`.  The array `client_id` is given with the
bytes behind it, because `get_id` writes its terminator there and `get_str`
reads it.
-/

namespace UnixPrograms
namespace Socket

open Foundation

def RAND_MAX : Nat := 2147483647

/-- The memory at `client_id` after `get_id` has drawn `id`. -/
def getId (id : Nat) (behind : Bytes) : Bytes :=
  let tmpId := snprintf (zeros IDSZ) (decimal id) IDSZ
  let clientId := List.replicate IDSZ 48 ++ behind
  let offset := IDSZ - strlen tmpId
  clientId.take offset ++ snprintf (clientId.drop offset) (cstr tmpId) IDSZ

/-- `fgets` into an array of `size` bytes: the bytes read, and what is left of
the input. -/
def fgets (size : Nat) (input : Bytes) : Option (Bytes × Bytes) :=
  if input = [] then
    none
  else
    let count := min (size - 1) ((input.takeWhile (fun b => b ≠ 10)).length + 1)
    some (input.take count, input.drop count)

/-- What a call of `get_str` leaves: the command, the piece that `fgets` read,
the request in `buffer`, and the input. -/
structure Typed where
  command : Command
  piece : Bytes
  request : Bytes
  input : Bytes
deriving DecidableEq

/-- `get_str`; `none` is `error`. -/
def getStr (clientId buffer input : Bytes) : Option Typed :=
  match fgets (BUFSZ - IDSZ) input with
  | none => none
  | some (read, input) =>
      let tmpBuf := read ++ zeros (BUFSZ - IDSZ - read.length)
      some
        { command := getCommand tmpBuf
          piece := read
          request := snprintf buffer (cstr clientId ++ cstr tmpBuf) BUFSZ
          input := input }

/-!
## The header
-/

theorem cstr_append {s : Bytes} (h : NoNul s) (rest : Bytes) :
    cstr (s ++ rest) = s ++ cstr rest := by
  induction s with
  | nil => rfl
  | cons b s ih =>
      have hb : b ≠ 0 := h b List.mem_cons_self
      show (b :: (s ++ rest)).takeWhile (fun b => b ≠ 0) = _
      rw [List.takeWhile_cons, if_pos (by simpa using hb)]
      exact congrArg (List.cons b) (ih (fun c hc => h c (List.mem_cons_of_mem b hc)))

def keptDigits (id : Nat) : Bytes :=
  (decimal id).take (IDSZ - 1)

theorem isDigit_keptDigits {id : Nat} {b : UInt8} (h : b ∈ keptDigits id) :
    isDigit b = true :=
  isDigit_decimal (List.mem_of_mem_take h)

theorem keptDigits_length (id : Nat) : (keptDigits id).length ≤ IDSZ - 1 :=
  List.length_take_le _ _

theorem cstr_getId (id : Nat) (behind : Bytes) :
    cstr (getId id behind) =
      List.replicate (IDSZ - (keptDigits id).length) 48 ++ keptDigits id := by
  have hkept : NoNul (keptDigits id) :=
    NoNul.of_digits (fun b => isDigit_keptDigits)
  have htmp : cstr (snprintf (zeros IDSZ) (decimal id) IDSZ) = keptDigits id :=
    cstr_snprintf (NoNul.of_digits (fun b => isDigit_decimal)) _ _
  have hlength := keptDigits_length id
  have hpad : NoNul (List.replicate (IDSZ - (keptDigits id).length) 48) := by
    intro b hb
    rw [List.eq_of_mem_replicate hb]
    decide
  have htake :
      (List.replicate IDSZ 48 ++ behind).take (IDSZ - (keptDigits id).length) =
        List.replicate (IDSZ - (keptDigits id).length) 48 := by
    rw [List.take_append_of_le_length (by rw [List.length_replicate]; lia),
      List.take_replicate, Nat.min_eq_left (Nat.sub_le _ _)]
  simp only [getId, strlen, htmp, htake]
  rw [cstr_append hpad, cstr_snprintf hkept, List.take_of_length_le hlength]

theorem header_digits {id : Nat} {behind : Bytes} {b : UInt8}
    (h : b ∈ cstr (getId id behind)) : isDigit b = true := by
  rw [cstr_getId] at h
  rcases List.mem_append.mp h with h | h
  · rw [List.eq_of_mem_replicate h]
    rfl
  · exact isDigit_keptDigits h

theorem header_length (id : Nat) (behind : Bytes) :
    (cstr (getId id behind)).length = IDSZ := by
  have hlength := keptDigits_length id
  rw [cstr_getId, List.length_append, List.length_replicate]
  lia

theorem digitsValue_keptDigits {id : Nat} (h : id ≤ RAND_MAX) :
    digitsValue (keptDigits id) = if id < 10 ^ 9 then id else id / 10 := by
  by_cases hsmall : id < 10 ^ 9
  · have hle : (decimal id).length ≤ IDSZ - 1 :=
      (decimal_length_le_iff (by decide)).mpr hsmall
    rw [if_pos hsmall, keptDigits, List.take_of_length_le hle,
      digitsValue_decimal]
  · have hupper : (decimal (id / 10)).length ≤ 9 :=
      (decimal_length_le_iff (by decide)).mpr (by unfold RAND_MAX at h; lia)
    have hlower : ¬ (decimal (id / 10)).length ≤ 8 := by
      rw [decimal_length_le_iff (by decide)]
      lia
    rw [if_neg hsmall, keptDigits, decimal_of_le (by lia),
      List.take_left' (by show _ = 9; lia), digitsValue_decimal]

/-!
## The id behind the header
-/

theorem strncpy_header {header : Bytes} (h : NoNul header)
    (hlength : header.length = IDSZ) (rest : Bytes) :
    strncpy (zeros IDSZ) (header ++ rest) IDSZ = header := by
  have hstrlen : IDSZ - strlen (header ++ rest) = 0 := by
    rw [strlen, cstr_append h, List.length_append, hlength]
    lia
  rw [strncpy, hstrlen, cstr_append h, List.take_left' hlength]
  simp [zeros]

theorem separateBuffer_header {header : Bytes}
    (hdigits : forall b, b ∈ header -> isDigit b = true)
    (hlength : header.length = IDSZ) (hvalue : digitsValue header < 2 ^ 31)
    (rest data : Bytes) :
    (separateBuffer (header ++ rest) data).1 = digitsValue header := by
  have hne : header ≠ [] := by
    intro hnil
    rw [hnil] at hlength
    cases hlength
  show atoi (strncpy (zeros IDSZ) (header ++ rest) IDSZ) = _
  rw [strncpy_header (NoNul.of_digits hdigits) hlength]
  exact atoi_digits hne hdigits hvalue

/-- The header of the id has `IDSZ` digits, and the server reads the id back
from each request that begins with it. -/
def Identifies (id : Nat) (behind : Bytes) : Prop :=
  (cstr (getId id behind)).length = IDSZ ∧
    (forall b, b ∈ cstr (getId id behind) -> isDigit b = true) ∧
    forall rest data,
      (separateBuffer (cstr (getId id behind) ++ rest) data).1 = id

theorem separateBuffer_getId {id : Nat} (h : id ≤ RAND_MAX)
    (behind rest data : Bytes) :
    (separateBuffer (cstr (getId id behind) ++ rest) data).1 =
      if id < 10 ^ 9 then (id : Int) else ((id / 10 : Nat) : Int) := by
  have hvalue : digitsValue (cstr (getId id behind)) =
      if id < 10 ^ 9 then id else id / 10 := by
    rw [cstr_getId, digitsValue_zeros, digitsValue_keptDigits h]
  have hrange : digitsValue (cstr (getId id behind)) < 2 ^ 31 := by
    rw [hvalue]
    unfold RAND_MAX at h
    split
    · lia
    · lia
  rw [separateBuffer_header (fun b => header_digits) (header_length id behind)
    hrange, hvalue]
  split
  · rfl
  · rfl

/-- An id is read back exactly when it has at most nine digits, and such ids
are told apart. -/
theorem client_identified_iff {id : Nat} (h : id ≤ RAND_MAX) (behind : Bytes) :
    (Identifies id behind <-> id < 10 ^ 9) ∧
      (id < 10 ^ 9 ->
        forall other, other < 10 ^ 9 -> other ≠ id ->
          forall behind' rest rest' data data',
            (separateBuffer (cstr (getId other behind') ++ rest') data').1 ≠
              (separateBuffer (cstr (getId id behind) ++ rest) data).1) := by
  constructor
  · constructor
    · intro hid
      have hread := hid.right.right [] []
      rw [separateBuffer_getId h] at hread
      by_contra hlarge
      rw [if_neg hlarge] at hread
      lia
    · intro hsmall
      refine ⟨header_length id behind, fun b => header_digits, ?_⟩
      intro rest data
      rw [separateBuffer_getId h, if_pos hsmall]
  · intro hsmall other hother hne behind' rest rest' data data'
    have hother' : other ≤ RAND_MAX := by
      unfold RAND_MAX
      lia
    rw [separateBuffer_getId h, separateBuffer_getId hother', if_pos hsmall,
      if_pos hother]
    lia

theorem client_identified_iff_small :
    (42 : Nat) ≤ RAND_MAX ∧
      (Identifies 42 [0] <-> 42 < 10 ^ 9) :=
  ⟨by decide, (client_identified_iff (by decide) [0]).left⟩

/-- Two clients that drew numbers of ten digits are given the same id. -/
theorem clients_confused :
    1000000000 ≤ RAND_MAX ∧ 1000000001 ≤ RAND_MAX ∧
      ¬ Identifies 1000000001 [0] ∧
      (separateBuffer (cstr (getId 1000000000 [0])) (zeros BUFSZ)).1 =
        (separateBuffer (cstr (getId 1000000001 [0])) (zeros BUFSZ)).1 := by
  refine ⟨by decide, by decide, ?_, by decide +kernel⟩
  intro h
  have hread := h.right.right [] (zeros BUFSZ)
  have hwrong :
      (separateBuffer (cstr (getId 1000000001 [0]) ++ []) (zeros BUFSZ)).1 =
        100000000 := by
    decide +kernel
  rw [hwrong] at hread
  cases hread

end Socket
end UnixPrograms
