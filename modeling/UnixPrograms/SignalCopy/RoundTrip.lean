import UnixPrograms.SignalCopy.Pacing
import UnixPrograms.SignalCopy.Strangers

/-!
# The way of a bit

The data signals of a whole file, taken by the receiver one by one and in
order.  The bits that have been written and the bits in the array are together
the bits taken so far.
-/

namespace UnixPrograms
namespace SignalCopy

open Foundation

/-!
## The signals of a file
-/

def Event.data : Event -> Option Signal
  | Event.sent _ signal => if IsData signal then some signal else none
  | Event.taken _ => none

/-- The data signals that the sender chooses for a file, when each of them is
acknowledged. -/
def chosenSignals (recPid : Pid) (file : List (UInt8 × UInt32)) : List Signal :=
  (history (sendFile recPid file Signal.sigContinue)
    (List.replicate (8 * file.length) (acknowledgement recPid))).filterMap
    Event.data

theorem acknowledged_goes_on (recPid : Pid) (arr : List Nat)
    (file : List (UInt8 × UInt32)) (infos : List SigInfo) :
    history (waitCode recPid arr file) (acknowledgement recPid :: infos) =
      Event.taken (acknowledgement recPid) ::
        history
          (sendBites recPid arr Signal.sigContinue >>= sendFile recPid file)
          infos := by
  rw [waitCode, history, answer_eq, if_neg (fun h => by cases h.right),
    if_neg (fun h => by cases h.right)]
  rfl

theorem data_byte (recPid : Pid) (arr : List Nat)
    (file : List (UInt8 × UInt32)) (infos : List SigInfo) :
    (history (sendBites recPid arr Signal.sigContinue >>= sendFile recPid file)
        (List.replicate arr.length (acknowledgement recPid) ++
          infos)).filterMap Event.data =
      arr.map bitSignal ++
        (history (sendFile recPid file Signal.sigContinue) infos).filterMap
          Event.data := by
  induction arr with
  | nil => rfl
  | cons bit arr ih =>
      have hdata : Event.data (Event.sent recPid (bitSignal bit)) =
          some (bitSignal bit) := if_pos (isData_bitSignal bit)
      rw [sendBites_cons, history, List.length_cons, List.replicate_succ,
        List.cons_append, acknowledged_goes_on,
        List.filterMap_cons_some hdata, List.filterMap_cons_none rfl, ih]
      rfl

theorem chosenSignals_eq (recPid : Pid) (file : List (UInt8 × UInt32)) :
    chosenSignals recPid file = (fileBits file).map bitSignal := by
  induction file with
  | nil => rfl
  | cons entry file ih =>
      have hbyte := data_byte recPid
        (getBites (symbolMemory entry.1 entry.2)) file
        (List.replicate (8 * file.length) (acknowledgement recPid))
      have hlength : (getBites (symbolMemory entry.1 entry.2)).length = 8 := by
        rw [getBites_symbolMemory, bitsOf_length]
      have hcount : 8 * (file.length + 1) = 8 + 8 * file.length := by
        lia
      rw [hlength, ← List.replicate_add, ← hcount] at hbyte
      refine hbyte.trans ?_
      change _ ++ chosenSignals recPid file = _
      rw [ih, ← List.map_append]
      rfl

/-!
## The receiver
-/

def waiting (myPid : Pid) : List SigInfo -> Prog Receiver -> Prog Receiver
  | [], code => (settle myPid code).2
  | info :: infos, code =>
      match (settle myPid code).2 with
      | Program.call (Op.sigwaitinfo _) next =>
          waiting myPid infos (next info)
      | code => code

def fromSender (senPid : Pid) (signal : Signal) : SigInfo where
  signal := signal
  siPid := senPid

section Receiving

variable {myPid : Pid} {r : Receiver}

theorem waiting_wait (myPid : Pid) (r : Receiver) :
    waiting myPid [] (receiverWait myPid r) = receiverWait myPid r := rfl

theorem waiting_cons {info : SigInfo} (infos : List SigInfo)
    (hflag : (r.after info).flag = true) :
    waiting myPid (info :: infos) (receiverWait myPid r) =
      waiting myPid infos (receiverWait myPid (r.after info)) := by
  have hnext : waiting myPid (info :: infos) (receiverWait myPid r) =
      waiting myPid infos (receiverAnswer myPid r info) := rfl
  have hround := @settle_round myPid _ _ _ (drain_answer myPid r info)
  rw [if_pos hflag] at hround
  rw [hnext]
  cases infos with
  | nil => rw [waiting, hround, waiting_wait]
  | cons info' infos =>
      rw [waiting, hround]
      rfl

structure Filling (senPid : Pid) (arr : Nat -> Nat) (r : Receiver) : Prop where
  main : r.senPid = senPid
  flag : r.flag = true
  short : r.arrLen < 8
  bits : forall bit, bit ∈ r.stored -> bit < 2
  beyond : forall i, 8 ≤ i -> r.arr i = arr i

theorem switch_bitSignal (r : Receiver) {bit : Nat} (hbit : bit < 2) :
    r.switch (bitSignal bit) =
      { r with
        arr := Function.update r.arr r.arrLen bit
        arrLen := r.arrLen + 1 } := by
  cases Nat.le_one_iff_eq_zero_or_eq_one.mp (Nat.le_of_lt_succ hbit) with
  | inl hzero =>
      rw [hzero]
      rfl
  | inr hone =>
      rw [hone]
      rfl

theorem Filling.stored_switch {senPid : Pid} {arr : Nat -> Nat}
    (h : Filling senPid arr r) {bit : Nat} (hbit : bit < 2) :
    (r.switch (bitSignal bit)).stored = r.stored ++ [bit] ∧
      forall i, 8 ≤ i -> (r.switch (bitSignal bit)).arr i = arr i := by
  rw [switch_bitSignal r hbit]
  refine ⟨map_range_update r.arr r.arrLen bit, ?_⟩
  intro i hi
  have hne : i ≠ r.arrLen := by
    have hshort := h.short
    lia
  rw [← h.beyond i hi]
  exact Function.update_of_ne hne _ _

theorem Filling.take {senPid : Pid} {arr : Nat -> Nat}
    (h : Filling senPid arr r) {bit : Nat} (hbit : bit < 2) :
    exists written,
      writtenBytes (answerTo myPid r (fromSender senPid (bitSignal bit))) =
        written ∧
      Filling senPid arr (r.after (fromSender senPid (bitSignal bit))) ∧
      bitStream 8 (written.map UInt8.toNat) ++
          (r.after (fromSender senPid (bitSignal bit))).stored =
        r.stored ++ [bit] := by
  rcases h.stored_switch hbit with ⟨hstored, hbeyond⟩
  have hbits : forall b, b ∈ (r.switch (bitSignal bit)).stored -> b < 2 := by
    intro b hb
    rw [hstored] at hb
    rcases List.mem_append.mp hb with hold | hnew
    · exact h.bits b hold
    · rw [List.mem_singleton.mp hnew]
      exact hbit
  have hsenPid : r.senPid = (fromSender senPid (bitSignal bit)).siPid := h.main
  have hsignal : (fromSender senPid (bitSignal bit)).signal = bitSignal bit :=
    rfl
  unfold answerTo Receiver.after
  simp only [if_pos hsenPid, hsignal]
  have hkept : (r.switch (bitSignal bit)).senPid = r.senPid ∧
      (r.switch (bitSignal bit)).flag = r.flag ∧
      (r.switch (bitSignal bit)).arrLen = r.arrLen + 1 := by
    rw [switch_bitSignal r hbit]
    exact ⟨rfl, rfl, rfl⟩
  by_cases hfull : (r.switch (bitSignal bit)).arrLen = 8
  · simp only [if_pos hfull]
    refine ⟨_, rfl, ?_, ?_⟩
    · constructor
      case main => exact hkept.left.trans h.main
      case flag => exact hkept.right.left.trans h.flag
      case short => exact Nat.zero_lt_succ 7
      case bits =>
        intro b hb
        cases hb
      case beyond => exact hbeyond
    · rw [← hstored, ← bitsOf_written hfull hbits]
      exact List.append_nil _
  · simp only [if_neg hfull]
    refine ⟨[], rfl, ?_, ?_⟩
    · constructor
      case main => exact hkept.left.trans h.main
      case flag => exact hkept.right.left.trans h.flag
      case short =>
        have hshort := h.short
        rw [hkept.right.right] at hfull ⊢
        lia
      case bits => exact hbits
      case beyond => exact hbeyond
    · exact hstored

theorem Filling.takeAll {senPid : Pid} {arr : Nat -> Nat} (bits : List Nat)
    (h : Filling senPid arr r) (hbits : forall bit, bit ∈ bits -> bit < 2) :
    let infos := bits.map (fun bit => fromSender senPid (bitSignal bit))
    exists r', waiting myPid infos (receiverWait myPid r) =
        receiverWait myPid r' ∧ Filling senPid arr r' ∧
      bitStream 8
          ((writtenBytes (outputs myPid infos (receiverWait myPid r))).map
            UInt8.toNat) ++ r'.stored = r.stored ++ bits := by
  induction bits generalizing r with
  | nil => exact ⟨r, rfl, h, (List.append_nil _).symm⟩
  | cons bit bits ih =>
      rcases @Filling.take myPid r senPid arr h bit
        (hbits bit List.mem_cons_self) with ⟨written, hwritten, hnext, hfirst⟩
      rcases ih hnext (fun b hb => hbits b (List.mem_cons_of_mem bit hb)) with
        ⟨r', hwaits, hfilling, hrest⟩
      refine ⟨r', ?_, hfilling, ?_⟩
      · rw [List.map_cons, waiting_cons _ hnext.flag]
        exact hwaits
      · rw [List.map_cons, outputs_cons, if_pos hnext.flag,
          writtenBytes_append, writtenBytes_kill, hwritten, List.map_append,
          bitStream_append, List.append_assoc, hrest, ← List.append_assoc,
          hfirst, List.append_assoc]
        rfl

end Receiving

/-!
## The file
-/

section File

variable {senPid myPid recPid : Pid} {arr : Nat -> Nat}
  {file : List (UInt8 × UInt32)} {k : Nat}

def dataInfos (senPid recPid : Pid) (file : List (UInt8 × UInt32)) :
    List SigInfo :=
  (chosenSignals recPid file).map (fromSender senPid)

def emptyReceiver (senPid : Pid) (arr : Nat -> Nat) : Receiver where
  senPid := senPid
  arr := arr
  arrLen := 0
  flag := true

theorem fileBits_lt {bit : Nat} (h : bit ∈ fileBits file) : bit < 2 := by
  rw [fileBits_eq, bitStream] at h
  rcases List.mem_flatMap.mp h with ⟨num, _, hmem⟩
  exact lt_of_mem_bitsOf hmem

theorem fileBits_length (file : List (UInt8 × UInt32)) :
    (fileBits file).length = 8 * file.length := by
  rw [fileBits_eq, bitStream_length, List.length_map, List.length_map]

theorem waiting_body (infos : List SigInfo) (r : Receiver) :
    waiting myPid infos (receiverBody myPid r) =
      waiting myPid infos (receiverWait myPid r) := by
  cases infos with
  | nil => rfl
  | cons info infos => rfl

/-- After `k` data signals of a file the receiver has written its first `k / 8`
bytes and waits with `k % 8` bits; it has stored no bit behind its array. -/
theorem bits_round_trip (hk : k ≤ (chosenSignals recPid file).length) :
    let infos := (dataInfos senPid recPid file).take k
    let start := receiverBody myPid (emptyReceiver senPid arr)
    let content := file.map Prod.fst
    writtenBytes (outputs myPid infos start) = content.take (k / 8) ∧
      (exists r, waiting myPid infos start = receiverWait myPid r ∧
        r.arrLen = k % 8 ∧ forall i, 8 ≤ i -> r.arr i = arr i) ∧
      (k = (chosenSignals recPid file).length ->
        writtenBytes (outputs myPid infos start) = content) := by
  intro infos start content
  have hinfos : infos = ((fileBits file).take k).map
      (fun bit => fromSender senPid (bitSignal bit)) := by
    simp only [infos, dataInfos, chosenSignals_eq, List.map_map, List.map_take]
    rfl
  have hlength : (chosenSignals recPid file).length = 8 * file.length := by
    rw [chosenSignals_eq, List.length_map, fileBits_length]
  rw [hlength] at hk ⊢
  have hfirst : Filling senPid arr (emptyReceiver senPid arr) := by
    constructor
    case main => rfl
    case flag => rfl
    case short => exact Nat.zero_lt_succ 7
    case bits =>
      intro bit hbit
      cases hbit
    case beyond => exact fun _ _ => rfl
  rcases @Filling.takeAll myPid _ senPid arr ((fileBits file).take k) hfirst
    (fun bit hbit => fileBits_lt (List.mem_of_mem_take hbit)) with
    ⟨r, hwaits, hfilling, hbits⟩
  rw [← hinfos] at hwaits hbits
  generalize hwritten : writtenBytes (outputs myPid infos
    (receiverWait myPid (emptyReceiver senPid arr))) = written at hbits
  have hsame : writtenBytes (outputs myPid infos start) = written := by
    rw [outputs_body, writtenBytes_kill, hwritten]
  -- the number of bits
  have hcount := congrArg List.length hbits
  rw [List.length_append, bitStream_length, List.length_map, stored_length,
    List.length_append, stored_length, List.length_take_of_le
      (by rw [fileBits_length]; exact hk)] at hcount
  change 8 * written.length + r.arrLen = 0 + k at hcount
  have hshort := hfilling.short
  -- the bytes whose bits are complete
  have hbytes : written = content.take (k / 8) := by
    have hwhole := congrArg (List.take (8 * written.length)) hbits
    have hlen : (bitStream 8 (written.map UInt8.toNat)).length =
        8 * written.length := by
      rw [bitStream_length, List.length_map]
    change List.take _ _ = List.take _ ((fileBits file).take k) at hwhole
    rw [← hlen, List.take_left, hlen, List.take_take,
      Nat.min_eq_left (by lia), fileBits_eq, bitStream_take] at hwhole
    have hnums := bitStream_injective (by decide) ?_ ?_ hwhole
    · rw [show k / 8 = written.length by lia]
      rw [← List.map_take] at hnums
      exact List.map_injective_iff.mpr (fun a b => UInt8.toNat_inj.mp) hnums
    · intro num hnum
      rcases List.mem_map.mp hnum with ⟨byte, _, heq⟩
      rw [← heq]
      exact byte.toNat_lt
    · intro num hnum
      rcases List.mem_map.mp (List.mem_of_mem_take hnum) with ⟨byte, _, heq⟩
      rw [← heq]
      exact byte.toNat_lt
  refine ⟨hsame.trans hbytes, ⟨r, ?_, by lia, hfilling.beyond⟩, ?_⟩
  · rw [waiting_body, hwaits]
  · intro hall
    rw [hsame, hbytes, hall, List.take_of_length_le]
    simp only [content, List.length_map]
    lia

theorem bits_round_trip_ten :
    10 ≤ (chosenSignals 2 [(65, 7), (66, 9)]).length ∧
      writtenBytes (outputs 2 ((dataInfos 1 2 [(65, 7), (66, 9)]).take 10)
        (receiverBody 2 (emptyReceiver 1 (fun _ => 5)))) = [65] := by
  have hk : 10 ≤ (chosenSignals 2 [(65, 7), (66, 9)]).length := by
    rw [chosenSignals_eq, List.length_map, fileBits_length]
    decide
  exact ⟨hk, (@bits_round_trip 1 2 2 (fun _ => 5) _ _ hk).left⟩

end File

end SignalCopy
end UnixPrograms
