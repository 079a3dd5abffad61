import UnixPrograms.Foundation.CString
import UnixPrograms.Foundation.Records

/-!
# Requests and their encoding

The part of `lib.c` that both protocols use: the buffer sizes, the mask over
the bytes of a string, the split of a request into the client's id and its
text, and the commands.
-/

namespace UnixPrograms
namespace Socket

open Foundation

def BUFSZ : Nat := 256
def IDSZ : Nat := 10
def MAX_CLIENTS_COUNT : Nat := 10
def CR_MASK : UInt8 := 0xAA

def PRINT : Bytes := text ['p', 'r', 'i', 'n', 't']
def EXIT : Bytes := text ['e', 'x', 'i', 't']
def CD : Bytes := text ['c', 'd']
def LS : Bytes := text ['l', 's']
def FINDALL : Bytes := text ['f', 'i', 'n', 'd', 'a', 'l', 'l']
def SHELL : Bytes := text ['s', 'h', 'e', 'l', 'l']
def QUIT : Bytes := text ['q', 'u', 'i', 't']

/-- `enum Commands`, without `error`. -/
inductive Command where
  | unknown
  | print
  | exitCom
  | cd
  | ls
  | findall
  | shell
  | quit
deriving DecidableEq, Repr

def getCommand (buffer : Bytes) : Command :=
  if startsWith buffer PRINT then Command.print
  else if startsWith buffer EXIT then Command.exitCom
  else if startsWith buffer CD then Command.cd
  else if startsWith buffer LS then Command.ls
  else if startsWith buffer FINDALL then Command.findall
  else if startsWith buffer SHELL then Command.shell
  else if startsWith buffer QUIT then Command.quit
  else Command.unknown

def masked (s : Bytes) : Bytes :=
  s.map (fun b => b ^^^ CR_MASK)

def encode (buffer : Bytes) : Bytes :=
  masked (cstr buffer) ++ buffer.drop (strlen buffer)

def decode (buffer : Bytes) : Bytes :=
  encode buffer

/-- The client's id and the new content of `data`.  `atoi` is taken to read
the bytes of the id only. -/
def separateBuffer (buffer data : Bytes) : Int × Bytes :=
  let clientIdStr := strncpy (zeros IDSZ) buffer IDSZ
  (atoi clientIdStr, strcpy data (buffer.drop IDSZ))

theorem cstr_separateBuffer (buffer data : Bytes) :
    cstr (separateBuffer buffer data).2 = cstr (buffer.drop IDSZ) :=
  cstr_strcpy data _

theorem getCommand_congr {buffer buffer' : Bytes}
    (h : cstr buffer = cstr buffer') :
    getCommand buffer = getCommand buffer' := by
  unfold getCommand startsWith
  rw [h]

/-!
## The mask
-/

theorem mask_mask (b : UInt8) : b ^^^ CR_MASK ^^^ CR_MASK = b := by
  rw [UInt8.xor_assoc, UInt8.xor_self, UInt8.xor_zero]

theorem mask_ne_zero {b : UInt8} (h : b ≠ CR_MASK) : b ^^^ CR_MASK ≠ 0 := by
  intro hzero
  apply h
  rw [← mask_mask b, hzero, UInt8.zero_xor]

@[simp] theorem masked_length (s : Bytes) : (masked s).length = s.length :=
  List.length_map _

@[simp] theorem masked_masked (s : Bytes) : masked (masked s) = s := by
  rw [masked, masked, List.map_map,
    List.map_congr_left (by intro b _; exact mask_mask b), List.map_id']

theorem map_masked_map_masked (rows : List Bytes) :
    (rows.map masked).map masked = rows := by
  rw [List.map_map,
    List.map_congr_left (by intro s _; exact masked_masked s), List.map_id']

theorem encode_length (buffer : Bytes) : (encode buffer).length = buffer.length := by
  have hle : strlen buffer ≤ buffer.length :=
    (List.takeWhile_prefix _).length_le
  rw [encode, List.length_append, masked_length, List.length_drop]
  exact Nat.add_sub_of_le hle

def Maskable (s : Bytes) : Prop :=
  forall b, b ∈ s -> b ≠ 0 ∧ b ≠ CR_MASK

instance (s : Bytes) : Decidable (Maskable s) :=
  List.decidableBAll (fun b => b ≠ 0 ∧ b ≠ CR_MASK) s

theorem Maskable.noNul {s : Bytes} (h : Maskable s) : NoNul s :=
  fun b hb => (h b hb).left

theorem Maskable.of_subset {s t : Bytes} (h : Maskable t) (hsub : s ⊆ t) :
    Maskable s :=
  fun b hb => h b (hsub hb)

theorem Maskable.masked {s : Bytes} (h : Maskable s) : NoNul (masked s) := by
  intro c hc
  rcases List.mem_map.mp hc with ⟨b, hb, hcb⟩
  rw [← hcb]
  exact mask_ne_zero (h b hb).right

theorem encode_append_zero {s : Bytes} (h : NoNul s) (rest : Bytes) :
    encode (s ++ 0 :: rest) = masked s ++ 0 :: rest := by
  have hstr := cstr_append_zero h rest
  simp only [encode, strlen, hstr, List.drop_left']

theorem encode_encode {s : Bytes} (h : NoNul s) (rest : Bytes) :
    exists rest', encode (encode (s ++ 0 :: rest)) =
      s.takeWhile (fun b => b ≠ CR_MASK) ++ 0 :: rest' := by
  have hhead : Maskable (s.takeWhile (fun b => b ≠ CR_MASK)) := by
    intro b hb
    exact ⟨h b (List.takeWhile_subset _ hb),
      by simpa using List.mem_takeWhile_imp hb⟩
  have hsplit := @List.takeWhile_append_dropWhile _
    (fun b => decide (b ≠ CR_MASK)) s
  rw [encode_append_zero h]
  cases htail : s.dropWhile (fun b => b ≠ CR_MASK) with
  | nil =>
      rw [htail, List.append_nil] at hsplit
      rw [← hsplit] at h ⊢
      rw [encode_append_zero hhead.masked, masked_masked, hsplit, hsplit]
      exact ⟨rest, rfl⟩
  | cons b tail =>
      have hb : b = CR_MASK := by
        have hno := List.head?_dropWhile_not (fun b => b ≠ CR_MASK) s
        rw [htail] at hno
        simpa using hno
      have hmasked : masked s ++ 0 :: rest =
          masked (s.takeWhile (fun b => b ≠ CR_MASK)) ++
            0 :: (masked tail ++ 0 :: rest) := by
        conv => lhs; rw [← hsplit, htail, hb]
        rw [masked, List.map_append, List.append_assoc]
        rfl
      rw [hmasked, encode_append_zero hhead.masked, masked_masked]
      exact ⟨_, rfl⟩

def Holds (buffer s : Bytes) : Prop :=
  NoNul s ∧ exists rest, buffer = s ++ 0 :: rest

theorem Holds.cstr_eq {buffer s : Bytes} (h : Holds buffer s) :
    cstr buffer = s := by
  rcases h.right with ⟨rest, heq⟩
  rw [heq, cstr_append_zero h.left]

/-- The two passes, in either order, leave the string as it was exactly when no
byte of it equals the mask. -/
theorem decode_encode_iff {buffer s : Bytes} (h : Holds buffer s) :
    (Holds (decode (encode buffer)) s ∧ Holds (encode (decode buffer)) s) <->
      CR_MASK ∉ s := by
  rcases h.right with ⟨rest, hbuffer⟩
  rcases encode_encode h.left rest with ⟨rest', htwice⟩
  rw [← hbuffer] at htwice
  have hhead : NoNul (s.takeWhile (fun b => b ≠ CR_MASK)) :=
    fun b hb => h.left b (List.takeWhile_subset _ hb)
  have hholds : Holds (encode (encode buffer)) s <-> CR_MASK ∉ s := by
    constructor
    · intro htwo hmem
      have hsame := htwo.cstr_eq
      rw [htwice, cstr_append_zero hhead, List.takeWhile_eq_self_iff] at hsame
      exact absurd rfl (of_decide_eq_true (hsame CR_MASK hmem))
    · intro hno
      have hsame : s.takeWhile (fun b => b ≠ CR_MASK) = s := by
        rw [List.takeWhile_eq_self_iff]
        intro b hb
        exact decide_eq_true (fun heq => hno (heq ▸ hb))
      exact ⟨h.left, rest', by rw [htwice, hsame]⟩
  exact (and_iff_left_of_imp id).trans hholds

theorem decode_encode_iff_hi :
    Holds (decode (encode (text ['h', 'i'] ++ [0, 7]))) (text ['h', 'i']) := by
  have hmask : Maskable (text ['h', 'i']) := by
    decide
  have hholds : Holds (text ['h', 'i'] ++ [0, 7]) (text ['h', 'i']) :=
    ⟨hmask.noNul, [7], rfl⟩
  exact ((decode_encode_iff hholds).mpr (by decide)).left

theorem mask_byte_lost :
    Holds [CR_MASK, 65, 0] [CR_MASK, 65] ∧
      decode (encode [CR_MASK, 65, 0]) = [0, 65 ^^^ CR_MASK, 0] ∧
      ¬ Holds (decode (encode [CR_MASK, 65, 0])) [CR_MASK, 65] := by
  have hnil : NoNul [] := fun b hb => absurd hb List.not_mem_nil
  have hnoNul : NoNul [CR_MASK, 65] :=
    NoNul.cons (by decide) (NoNul.cons (by decide) hnil)
  refine ⟨⟨hnoNul, [], rfl⟩, by decide, ?_⟩
  intro h
  have hsame := h.cstr_eq
  revert hsame
  decide

/-!
## Buffers of `BUFSZ` bytes

A string in a zero-padded buffer is a record of `BUFSZ` bytes, before and
after it is encoded.  What a receiving call stores is the beginning of what
was sent, in a buffer of zeros.
-/

theorem fits_masked {s : Bytes} (hnonempty : s ≠ []) (hshort : s.length ≤ BUFSZ)
    (h : Maskable s) : Fits 0 BUFSZ (masked s) where
  nonempty := fun hnil => hnonempty (List.map_eq_nil_iff.mp hnil)
  short := by
    rw [masked_length]
    exact hshort
  noPad := fun hmem => h.masked 0 hmem rfl

theorem encode_record {s : Bytes} (h : NoNul s) :
    encode (record 0 BUFSZ s) = record 0 BUFSZ (masked s) := by
  rw [record, record, masked_length]
  cases hcount : BUFSZ - s.length with
  | zero =>
      -- the byte behind the buffer ends the string
      simp only [List.replicate_zero, List.append_nil, encode, strlen,
        cstr_of_noNul h, List.drop_length]
  | succ count => exact encode_append_zero h _

def decodedPiece (piece : Bytes) : Bytes :=
  decode (piece ++ zeros (BUFSZ - piece.length))

theorem padded_piece (piece : Bytes) (count : Nat) :
    exists rest, piece ++ zeros (count + 1) = headOf 0 piece ++ 0 :: rest := by
  induction piece with
  | nil => exact ⟨zeros count, rfl⟩
  | cons b piece ih =>
      by_cases hb : b = 0
      · rw [hb, headOf_pad]
        exact ⟨piece ++ zeros (count + 1), rfl⟩
      · rcases ih with ⟨rest, hrest⟩
        have hhead : headOf 0 (b :: piece) = b :: headOf 0 piece := by
          simp [headOf, hb]
        rw [hhead, List.cons_append, hrest]
        exact ⟨rest, rfl⟩

theorem cstr_decodedPiece {piece : Bytes} (hlength : piece.length < BUFSZ)
    (hmask : CR_MASK ∉ piece) :
    cstr (decodedPiece piece) = masked (headOf 0 piece) := by
  have hcount : BUFSZ - piece.length = BUFSZ - piece.length - 1 + 1 := by
    lia
  rcases padded_piece piece (BUFSZ - piece.length - 1) with ⟨rest, hrest⟩
  have hhead : Maskable (headOf 0 piece) := by
    intro b hb
    constructor
    · simpa using List.mem_takeWhile_imp hb
    · intro heq
      rw [heq] at hb
      exact hmask (List.takeWhile_subset _ hb)
  rw [decodedPiece, hcount, hrest, decode, encode_append_zero hhead.noNul]
  exact cstr_append_zero hhead.masked rest

theorem mask_notMem_record {s : Bytes} (h : NoNul s) :
    CR_MASK ∉ record 0 BUFSZ (masked s) := by
  intro hmem
  rcases List.mem_append.mp hmem with hmem | hmem
  · rcases List.mem_map.mp hmem with ⟨b, hb, hmask⟩
    apply h b hb
    rw [← mask_mask b, hmask]
    rfl
  · exact absurd (List.eq_of_mem_replicate hmem) (by decide)

end Socket
end UnixPrograms
