import UnixPrograms.SignalCopy.Points

/-!
# The file that arrives

The receiver acknowledges the sender twice before the first bit, so the sender
can be one bit ahead.  As long as no data signal is sent while one of the same
or of a higher number is pending, the bits stored, the bits pending and the
bits still to be sent are together the bits of the file.
-/

namespace UnixPrograms
namespace SignalCopy

open Foundation

/-- A data signal is sent only while none of the same or of a higher number is
pending at its receiver: it is neither merged nor taken too early. -/
def InOrder (s : State) (party : Party) : Prop :=
  match party, s.sender.nextOp with
  | Party.sender, some (Op.kill target signal) =>
      (signal = Signal.sigGet0 ∨ signal = Signal.sigGet1) ->
        forall data, data ∈ [Signal.sigGet0, Signal.sigGet1] ->
          signal.number ≤ data.number -> s.kernel.pending target data = none
  | _, _ => True

instance (s : State) (party : Party) : Decidable (InOrder s party) := by
  unfold InOrder
  split
  · infer_instance
  · infer_instance

/-- The data signals that wait for the receiver, in the order in which it will
take them. -/
def pendingBits (cfg : Config) (k : Kernel) : List Nat :=
  (if (k.pending cfg.recPid Signal.sigGet0).isSome = true then [0] else []) ++
    (if (k.pending cfg.recPid Signal.sigGet1).isSome = true then [1] else [])

inductive Receiving : ReceiverPoint -> Receiver -> Prop where
  | loop (r : Receiver) (hflag : r.flag = true) (hlen : r.arrLen < 8) :
      Receiving (ReceiverPoint.loop r) r
  | wait (r : Receiver) (hflag : r.flag = true) (hlen : r.arrLen < 8) :
      Receiving (ReceiverPoint.wait r) r
  | write (r : Receiver) (hflag : r.flag = true) (hlen : r.arrLen = 8) :
      Receiving (ReceiverPoint.write r) r
  | ended (r : Receiver) (hlen : r.arrLen < 8) :
      Receiving (ReceiverPoint.ended r) r

structure Copying (cfg : Config) (k : Kernel) (sp : SenderPoint)
    (rp : ReceiverPoint) (r : Receiver) : Prop where
  begun : sp ≠ SenderPoint.start
  receiving : Receiving rp r
  main : r.senPid = cfg.senPid
  answers : forall signal q, k.pending cfg.senPid signal = some q ->
    signal = Signal.sigContinue ∧ q = cfg.recPid
  data : forall signal q, k.pending cfg.recPid signal = some q ->
    q = cfg.senPid ∧ (signal = Signal.sigGet0 ∨ signal = Signal.sigGet1 ∨
      signal = Signal.sigFinish)
  finished : forall q, k.pending cfg.recPid Signal.sigFinish = some q ->
    sp = SenderPoint.ended
  ended : rp = ReceiverPoint.ended r -> sp = SenderPoint.ended ∧
    forall signal, k.pending cfg.recPid signal = none
  bits : bitStream 8 (k.written.map UInt8.toNat) ++ r.stored ++
    pendingBits cfg k ++ sp.bitsLeft cfg = fileBits cfg.file

inductive Phase (cfg : Config) (k : Kernel) :
    SenderPoint -> ReceiverPoint -> Prop where
  | fresh (hnone : forall p signal, k.pending p signal = none)
      (hwritten : k.written = []) :
      Phase cfg k SenderPoint.start ReceiverPoint.first
  | calling (hsender : forall signal, k.pending cfg.senPid signal = none)
      (hreceiver : forall signal, k.pending cfg.recPid signal =
        if signal = Signal.sigContinue then some cfg.senPid else none)
      (hwritten : k.written = []) :
      Phase cfg k SenderPoint.connected ReceiverPoint.first
  | chosen (hsender : forall signal, k.pending cfg.senPid signal = none)
      (hreceiver : forall signal, k.pending cfg.recPid signal = none)
      (hwritten : k.written = []) :
      Phase cfg k SenderPoint.connected ReceiverPoint.greet
  | copying (sp : SenderPoint) (rp : ReceiverPoint) (r : Receiver)
      (h : Copying cfg k sp rp r) : Phase cfg k sp rp

def Inv (cfg : Config) (s : State) : Prop :=
  exists sp rp, s.sender = sp.code cfg ∧ s.receiver = rp.code cfg ∧
    Phase cfg s.kernel sp rp

theorem inv_start (cfg : Config) : Inv cfg cfg.start :=
  ⟨SenderPoint.start, ReceiverPoint.first, rfl, rfl,
    Phase.fresh (fun _ _ => rfl) rfl⟩

/-!
## Bits

As long as a data signal is sent only when none of the same or a higher number is
pending, the pending ones are the bits in the order in which they will be
taken.
-/

theorem pendingBits_congr {cfg : Config} {k k' : Kernel}
    (h : forall signal, k'.pending cfg.recPid signal =
      k.pending cfg.recPid signal) :
    pendingBits cfg k' = pendingBits cfg k := by
  rw [pendingBits, pendingBits, h, h]

theorem Copying.lt_two {cfg : Config} {k : Kernel} {sp : SenderPoint}
    {rp : ReceiverPoint} {r : Receiver} (h : Copying cfg k sp rp r) {bit : Nat}
    (hbit : bit ∈ r.stored ++ sp.bitsLeft cfg) : bit < 2 := by
  have hall : bit ∈ fileBits cfg.file := by
    rw [← h.bits]
    simp only [List.mem_append] at hbit ⊢
    tauto
  rw [fileBits_eq, bitStream] at hall
  rcases List.mem_flatMap.mp hall with ⟨num, _, hmem⟩
  exact lt_of_mem_bitsOf hmem

/-!
## Steps of the sender
-/

theorem pending_take_sender (cfg : Config) (k : Kernel) (signal sig : Signal) :
    (k.take cfg.senPid signal).pending cfg.recPid sig =
      k.pending cfg.recPid sig :=
  pending_take_other k signal sig cfg.distinct.symm

theorem Copying.acknowledge {cfg : Config} {k : Kernel} {sp sp' : SenderPoint}
    {rp : ReceiverPoint} {r : Receiver} (h : Copying cfg k sp rp r)
    (hsp : sp ≠ SenderPoint.ended) (hsp' : sp' ≠ SenderPoint.start)
    (hbits : sp'.bitsLeft cfg = sp.bitsLeft cfg) :
    Copying cfg (k.take cfg.senPid Signal.sigContinue) sp' rp r where
  begun := hsp'
  receiving := h.receiving
  main := h.main
  answers := by
    intro signal q hpending
    exact h.answers signal q (take_pending hpending)
  data := by
    intro signal q hpending
    rw [pending_take_sender] at hpending
    exact h.data signal q hpending
  finished := by
    intro q hpending
    rw [pending_take_sender] at hpending
    exact absurd (h.finished q hpending) hsp
  ended := by
    intro hrp
    exact absurd (h.ended hrp).left hsp
  bits := by
    rw [hbits, pendingBits_congr (pending_take_sender cfg k _)]
    exact h.bits

theorem pending_kill_sender (cfg : Config) (k : Kernel) (signal sig : Signal) :
    (k.kill cfg.senPid cfg.recPid signal).pending cfg.senPid sig =
      k.pending cfg.senPid sig :=
  pending_kill_other k signal sig cfg.distinct

theorem pending_acknowledge (cfg : Config) (k : Kernel) (signal sig : Signal) :
    (k.kill cfg.recPid cfg.senPid signal).pending cfg.recPid sig =
      k.pending cfg.recPid sig :=
  pending_kill_other k signal sig cfg.distinct.symm

theorem pending_kill_receiver (cfg : Config) (k : Kernel) (signal sig : Signal)
    (hnone : k.pending cfg.recPid signal = none) :
    (k.kill cfg.senPid cfg.recPid signal).pending cfg.recPid sig =
      if sig = signal then some cfg.senPid else k.pending cfg.recPid sig := by
  rw [pending_kill, hnone]
  simp

theorem pendingBits_send {cfg : Config} {k : Kernel} {value : Nat}
    {signal : Signal} (hvalue : value < 2)
    (hsignal : signal = if value = 0 then Signal.sigGet0 else Signal.sigGet1)
    (horder : forall data, data ∈ [Signal.sigGet0, Signal.sigGet1] ->
      signal.number ≤ data.number -> k.pending cfg.recPid data = none) :
    pendingBits cfg (k.kill cfg.senPid cfg.recPid signal) =
      pendingBits cfg k ++ [value] := by
  rcases Nat.le_one_iff_eq_zero_or_eq_one.mp (Nat.le_of_lt_succ hvalue) with
    hzero | hone
  · rw [hzero, if_pos rfl] at hsignal
    rw [hsignal] at horder
    have hget0 := horder Signal.sigGet0 (by decide) (by decide)
    have hget1 := horder Signal.sigGet1 (by decide) (by decide)
    simp [pendingBits, hsignal, pending_kill_receiver cfg k _ _ hget0, hget0,
      hget1, hzero]
  · rw [hone, if_neg (by decide)] at hsignal
    rw [hsignal] at horder
    have hget1 := horder Signal.sigGet1 (by decide) (by decide)
    simp [pendingBits, hsignal, pending_kill_receiver cfg k _ _ hget1, hget1,
      hone]

theorem signal_of_bit {value : Nat} {signal : Signal}
    (h : signal = if value = 0 then Signal.sigGet0 else Signal.sigGet1) :
    signal = Signal.sigGet0 ∨ signal = Signal.sigGet1 := by
  rw [h]
  split
  · exact Or.inl rfl
  · exact Or.inr rfl

theorem answers_kill {cfg : Config} {k : Kernel} {signal : Signal}
    (h : forall sig q, k.pending cfg.senPid sig = some q ->
      sig = Signal.sigContinue ∧ q = cfg.recPid) (sig : Signal) (q : Pid)
    (hpending : (k.kill cfg.senPid cfg.recPid signal).pending cfg.senPid sig =
      some q) :
    sig = Signal.sigContinue ∧ q = cfg.recPid := by
  rw [pending_kill_sender] at hpending
  exact h sig q hpending

theorem data_kill {cfg : Config} {k : Kernel} {signal : Signal}
    (hsignal : signal = Signal.sigGet0 ∨ signal = Signal.sigGet1 ∨
      signal = Signal.sigFinish)
    (h : forall sig q, k.pending cfg.recPid sig = some q ->
      q = cfg.senPid ∧ (sig = Signal.sigGet0 ∨ sig = Signal.sigGet1 ∨
        sig = Signal.sigFinish)) (sig : Signal) (q : Pid)
    (hpending : (k.kill cfg.senPid cfg.recPid signal).pending cfg.recPid sig =
      some q) :
    q = cfg.senPid ∧ (sig = Signal.sigGet0 ∨ sig = Signal.sigGet1 ∨
      sig = Signal.sigFinish) := by
  rcases pending_of_kill hpending with hbefore | ⟨hsig, hq⟩
  · exact h sig q hbefore
  · rw [hsig]
    exact ⟨hq, hsignal⟩

theorem Copying.send {cfg : Config} {k : Kernel} {value : Nat} {arr : List Nat}
    {file : List (UInt8 × UInt32)} {rp : ReceiverPoint} {r : Receiver}
    (h : Copying cfg k (SenderPoint.bit value arr file) rp r) {signal : Signal}
    (hsignal : signal = if value = 0 then Signal.sigGet0 else Signal.sigGet1)
    (horder : forall data, data ∈ [Signal.sigGet0, Signal.sigGet1] ->
      signal.number ≤ data.number -> k.pending cfg.recPid data = none) :
    Copying cfg (k.kill cfg.senPid cfg.recPid signal)
      (SenderPoint.wait arr file) rp r := by
  have hdata := signal_of_bit hsignal
  have hnone : k.pending cfg.recPid signal = none := by
    apply horder signal _ (Nat.le_refl _)
    rcases hdata with hcase | hcase
    · rw [hcase]
      decide
    · rw [hcase]
      decide
  have hvalue : value < 2 := by
    apply h.lt_two
    simp [SenderPoint.bitsLeft]
  constructor
  case begun => exact fun hcontra => by cases hcontra
  case receiving => exact h.receiving
  case main => exact h.main
  case answers => exact answers_kill h.answers
  case data => exact data_kill (hdata.imp_right Or.inl) h.data
  case finished =>
    intro q hpending
    rw [pending_kill_receiver cfg k _ _ hnone, if_neg] at hpending
    · cases h.finished q hpending
    · intro heq
      rcases hdata with hcase | hcase
      · rw [hcase] at heq
        cases heq
      · rw [hcase] at heq
        cases heq
  case ended =>
    intro hrp
    cases (h.ended hrp).left
  case bits =>
    rw [written_kill, pendingBits_send hvalue hsignal horder, ← h.bits]
    simp [SenderPoint.bitsLeft]

theorem Copying.announce {cfg : Config} {k : Kernel} {rp : ReceiverPoint}
    {r : Receiver} (h : Copying cfg k SenderPoint.finish rp r) :
    Copying cfg (k.kill cfg.senPid cfg.recPid Signal.sigFinish)
      SenderPoint.ended rp r := by
  have hnone : k.pending cfg.recPid Signal.sigFinish = none := by
    cases hpending : k.pending cfg.recPid Signal.sigFinish with
    | none => rfl
    | some q => cases h.finished q hpending
  constructor
  case begun => exact fun hcontra => by cases hcontra
  case receiving => exact h.receiving
  case main => exact h.main
  case answers => exact answers_kill h.answers
  case data => exact data_kill (Or.inr (Or.inr rfl)) h.data
  case finished => exact fun q hpending => rfl
  case ended =>
    intro hrp
    cases (h.ended hrp).left
  case bits =>
    rw [← h.bits, written_kill]
    simp [pendingBits, pending_kill_receiver cfg k _ _ hnone,
      SenderPoint.bitsLeft]

theorem Copying.taken {cfg : Config} {k k' : Kernel} {sp : SenderPoint}
    {rp : ReceiverPoint} {r : Receiver} (h : Copying cfg k sp rp r)
    {info : SigInfo}
    (hexec : k.exec lowest cfg.senPid (Op.sigwaitinfo senderSigset) =
      some (info, k')) :
    info = { signal := Signal.sigContinue, siPid := cfg.recPid } ∧
      k' = k.take cfg.senPid Signal.sigContinue := by
  rcases exec_sigwaitinfo hexec with ⟨_, hpending, hk, _⟩
  rcases h.answers info.signal info.siPid hpending with ⟨hsignal, hpid⟩
  rw [hsignal] at hk
  refine ⟨?_, hk⟩
  rw [← hsignal, ← hpid]

theorem sendBitesAnswer_continue (recPid : Pid) (arr : List Nat) :
    sendBitesAnswer recPid arr
        { signal := Signal.sigContinue, siPid := recPid } =
      sendBites recPid arr Signal.sigContinue := by
  rw [sendBitesAnswer, if_pos rfl]

theorem nextPoint_begun (arr : List Nat) (file : List (UInt8 × UInt32)) :
    nextPoint arr file ≠ SenderPoint.start := by
  cases arr with
  | cons value arr => exact fun h => by cases h
  | nil =>
      cases file with
      | nil => exact fun h => by cases h
      | cons entry file => exact fun h => by cases h

theorem Copying.sender_step {cfg : Config} {s s' : State} {sp : SenderPoint}
    {rp : ReceiverPoint} {r : Receiver} (hsender : s.sender = sp.code cfg)
    (hreceiver : s.receiver = rp.code cfg) (h : Copying cfg s.kernel sp rp r)
    (horder : InOrder s Party.sender)
    (hstep : step cfg s Party.sender = some s') : Inv cfg s' := by
  cases sp with
  | start => exact absurd rfl h.begun
  | connected =>
      rcases step_sender hsender hstep with ⟨info, k, hexec, heq⟩
      rcases h.taken hexec with ⟨hinfo, hk⟩
      have hnext := h.acknowledge (by simp) (nextPoint_begun [] cfg.file)
        (bitsLeft_nextPoint cfg [] cfg.file)
      rw [heq, hinfo, hk]
      exact ⟨_, rp, nextPoint_code cfg [] cfg.file, hreceiver,
        Phase.copying _ rp r hnext⟩
  | bit value arr file =>
      rcases step_sender hsender hstep with ⟨answer, k, hexec, heq⟩
      injection hexec with hexec
      injection hexec with _ hk
      have hdata : (if value = 0 then Signal.sigGet0 else Signal.sigGet1) =
          Signal.sigGet0 ∨
          (if value = 0 then Signal.sigGet0 else Signal.sigGet1) =
          Signal.sigGet1 := by
        split
        · exact Or.inl rfl
        · exact Or.inr rfl
      have hop : s.sender.nextOp =
          some (Op.kill cfg.recPid
            (if value = 0 then Signal.sigGet0 else Signal.sigGet1)) := by
        rw [hsender]
        rfl
      simp only [InOrder, hop] at horder
      have hnext := h.send rfl (horder hdata)
      rw [heq, ← hk]
      exact ⟨SenderPoint.wait arr file, rp, rfl, hreceiver,
        Phase.copying _ rp r hnext⟩
  | wait arr file =>
      rcases step_sender hsender hstep with ⟨info, k, hexec, heq⟩
      rcases h.taken hexec with ⟨hinfo, hk⟩
      have hnext := h.acknowledge (by simp) (nextPoint_begun arr file)
        (bitsLeft_nextPoint cfg arr file)
      rw [heq, hinfo, hk, sendBitesAnswer_continue]
      exact ⟨_, rp, nextPoint_code cfg arr file, hreceiver,
        Phase.copying _ rp r hnext⟩
  | finish =>
      rcases step_sender hsender hstep with ⟨answer, k, hexec, heq⟩
      injection hexec with hexec
      injection hexec with _ hk
      rw [heq, ← hk]
      exact ⟨SenderPoint.ended, rp, rfl, hreceiver,
        Phase.copying _ rp r h.announce⟩
  | ended =>
      rw [step, hsender] at hstep
      cases hstep

/-!
## Steps of the receiver
-/

theorem Copying.acknowledged {cfg : Config} {k : Kernel} {sp : SenderPoint}
    {r : Receiver} (h : Copying cfg k sp (ReceiverPoint.loop r) r) :
    Copying cfg (k.kill cfg.recPid cfg.senPid Signal.sigContinue) sp
      (ReceiverPoint.wait r) r := by
  have hsame := pending_acknowledge cfg k Signal.sigContinue
  constructor
  case begun => exact h.begun
  case receiving =>
    cases h.receiving with
    | loop _ hflag hlen => exact Receiving.wait r hflag hlen
  case main => exact h.main
  case answers =>
    intro signal q hpending
    rcases pending_of_kill hpending with hbefore | hnew
    · exact h.answers signal q hbefore
    · exact hnew
  case data =>
    intro signal q hpending
    rw [hsame] at hpending
    exact h.data signal q hpending
  case finished =>
    intro q hpending
    rw [hsame] at hpending
    exact h.finished q hpending
  case ended => exact fun hcontra => by cases hcontra
  case bits =>
    rw [written_kill, pendingBits_congr hsame]
    exact h.bits

theorem pending_take_receiver (cfg : Config) (k : Kernel) (signal sig : Signal) :
    (k.take cfg.recPid signal).pending cfg.senPid sig =
      k.pending cfg.senPid sig :=
  pending_take_other k signal sig cfg.distinct

theorem pendingBits_take {cfg : Config} {k : Kernel} {signal : Signal}
    {bit : Nat} (hpending : (k.pending cfg.recPid signal).isSome = true)
    (hsignal : signal = Signal.sigGet0 ∧ bit = 0 ∨
      signal = Signal.sigGet1 ∧ bit = 1 ∧
        k.pending cfg.recPid Signal.sigGet0 = none) :
    pendingBits cfg k = bit :: pendingBits cfg (k.take cfg.recPid signal) := by
  rcases hsignal with ⟨hget, hbit⟩ | ⟨hget, hbit, hnone⟩
  · rw [hget] at hpending
    simp [pendingBits, pending_take, hget, hbit, hpending]
  · rw [hget] at hpending
    simp [pendingBits, pending_take, hget, hbit, hpending, hnone]

def afterSwitch (r : Receiver) : ReceiverPoint :=
  if r.arrLen = 8 then ReceiverPoint.write r
  else if r.flag = true then ReceiverPoint.loop r
  else ReceiverPoint.ended r

theorem afterSwitch_code (cfg : Config) (r : Receiver) :
    receiverLoop cfg.recPid
        (if r.arrLen = 8 then writeSymbol r else Program.ret r) =
      (afterSwitch r).code cfg := by
  by_cases hlen : r.arrLen = 8
  · rw [if_pos hlen, afterSwitch, if_pos hlen]
    rfl
  · rw [if_neg hlen, afterSwitch, if_neg hlen]
    by_cases hflag : r.flag = true
    · rw [if_pos hflag, receiverLoop, Program.again, if_pos hflag]
      rfl
    · rw [if_neg hflag, receiverLoop, Program.again, if_neg hflag]
      rfl

theorem Copying.store {cfg : Config} {k : Kernel} {sp : SenderPoint}
    {r r' : Receiver} (h : Copying cfg k sp (ReceiverPoint.wait r) r)
    {signal : Signal} {bit : Nat}
    (hbits : pendingBits cfg k = bit :: pendingBits cfg (k.take cfg.recPid signal))
    (hstored : r'.stored = r.stored ++ [bit]) (hlen : r'.arrLen = r.arrLen + 1)
    (hmain : r'.senPid = r.senPid) (hflag : r'.flag = r.flag) :
    Copying cfg (k.take cfg.recPid signal) sp (afterSwitch r') r' := by
  have hreceiving : Receiving (afterSwitch r') r' ∧
      afterSwitch r' ≠ ReceiverPoint.ended r' := by
    cases h.receiving with
    | wait _ hflag' hlen' =>
        rw [hflag'] at hflag
        by_cases hfull : r'.arrLen = 8
        · rw [afterSwitch, if_pos hfull]
          exact ⟨Receiving.write r' hflag hfull, fun hcontra => by cases hcontra⟩
        · rw [afterSwitch, if_neg hfull, if_pos hflag]
          exact ⟨Receiving.loop r' hflag (by lia),
            fun hcontra => by cases hcontra⟩
  constructor
  case begun => exact h.begun
  case receiving => exact hreceiving.left
  case main => exact hmain.trans h.main
  case answers =>
    intro sig q hpending
    rw [pending_take_receiver] at hpending
    exact h.answers sig q hpending
  case data =>
    intro sig q hpending
    exact h.data sig q (take_pending hpending)
  case finished =>
    intro q hpending
    exact h.finished q (take_pending hpending)
  case ended => exact fun hcontra => absurd hcontra hreceiving.right
  case bits =>
    rw [written_take, hstored, ← h.bits, hbits]
    simp

theorem Copying.close {cfg : Config} {k : Kernel} {sp : SenderPoint}
    {r : Receiver} (h : Copying cfg k sp (ReceiverPoint.wait r) r) {q : Pid}
    (hpending : k.pending cfg.recPid Signal.sigFinish = some q)
    (hget0 : k.pending cfg.recPid Signal.sigGet0 = none)
    (hget1 : k.pending cfg.recPid Signal.sigGet1 = none) :
    Copying cfg (k.take cfg.recPid Signal.sigFinish) sp
      (ReceiverPoint.ended r.finish) r.finish := by
  have hnone : forall signal,
      (k.take cfg.recPid Signal.sigFinish).pending cfg.recPid signal = none := by
    intro signal
    rw [pending_take]
    split
    · rfl
    · rename_i hother
      cases hold : k.pending cfg.recPid signal with
      | none => rfl
      | some q' =>
          rcases (h.data signal q' hold).right with hsig | hsig | hsig
          · rw [hsig, hget0] at hold
            cases hold
          · rw [hsig, hget1] at hold
            cases hold
          · exact absurd ⟨rfl, hsig⟩ hother
  constructor
  case begun => exact h.begun
  case receiving =>
    cases h.receiving with
    | wait _ hflag hlen => exact Receiving.ended r.finish hlen
  case main => exact h.main
  case answers =>
    intro sig q' hsender
    rw [pending_take_receiver] at hsender
    exact h.answers sig q' hsender
  case data =>
    intro sig q' hreceiver
    rw [hnone] at hreceiver
    cases hreceiver
  case finished =>
    intro q' hreceiver
    rw [hnone] at hreceiver
    cases hreceiver
  case ended => exact fun _ => ⟨h.finished q hpending, hnone⟩
  case bits =>
    have hsame : pendingBits cfg (k.take cfg.recPid Signal.sigFinish) =
        pendingBits cfg k := by
      simp [pendingBits, hnone, hget0, hget1]
    rw [written_take, hsame]
    exact h.bits

theorem Copying.writeByte {cfg : Config} {k : Kernel} {sp : SenderPoint}
    {r : Receiver} (h : Copying cfg k sp (ReceiverPoint.write r) r) :
    Copying cfg { k with written := k.written ++ [UInt8.ofNat r.num] } sp
      (ReceiverPoint.loop { r with arrLen := 0 }) { r with arrLen := 0 } := by
  cases h.receiving with
  | write _ hflag hlen =>
      constructor
      case begun => exact h.begun
      case receiving => exact Receiving.loop _ hflag (Nat.zero_lt_succ 7)
      case main => exact h.main
      case answers => exact h.answers
      case data => exact h.data
      case finished => exact h.finished
      case ended => exact fun hcontra => by cases hcontra
      case bits =>
        have hbyte := bitsOf_written hlen
          (fun bit hbit => h.lt_two (List.mem_append_left _ hbit))
        rw [← h.bits, List.map_append, bitStream_append]
        have hempty : ({ r with arrLen := 0 } : Receiver).stored = [] := rfl
        have hnew : bitStream 8 ([UInt8.ofNat r.num].map UInt8.toNat) =
            r.stored := by
          rw [← hbyte]
          simp [bitStream]
        rw [hempty, hnew, List.append_nil]
        rfl

theorem Copying.receiver_wait {cfg : Config} {s s' : State} {sp : SenderPoint}
    {r : Receiver} (hsender : s.sender = sp.code cfg)
    (hreceiver : s.receiver = receiverWait cfg.recPid r)
    (h : Copying cfg s.kernel sp (ReceiverPoint.wait r) r)
    (hstep : step cfg s Party.receiver = some s') : Inv cfg s' := by
  rcases step_receiver hreceiver hstep with ⟨info, k, hexec, heq⟩
  rcases exec_sigwaitinfo hexec with ⟨_, hpending, hk, hlower⟩
  rcases h.data info.signal info.siPid hpending with ⟨hpid, hsignal⟩
  have hcode : s'.receiver = (afterSwitch (r.switch info.signal)).code cfg := by
    rw [heq, ← afterSwitch_code]
    change receiverLoop cfg.recPid (if r.senPid = info.siPid then _ else _) = _
    rw [if_pos (h.main.trans hpid.symm)]
    rfl
  have hkernel : s'.kernel = s.kernel.take cfg.recPid info.signal := by
    rw [heq, hk]
  have hsender' : s'.sender = sp.code cfg := by
    rw [heq]
    exact hsender
  refine ⟨sp, _, hsender', hcode, Phase.copying _ _ (r.switch info.signal) ?_⟩
  rw [hkernel]
  have hsome : (s.kernel.pending cfg.recPid info.signal).isSome = true := by
    rw [hpending]
    rfl
  rcases hsignal with hget | hget | hfinish
  · have hbits := pendingBits_take hsome (Or.inl ⟨hget, rfl⟩)
    rw [hget] at hbits ⊢
    exact h.store hbits (stored_get0 r) rfl rfl rfl
  · have hget0 := hlower Signal.sigGet0 (by decide) (by rw [hget]; decide)
    have hbits := pendingBits_take hsome (Or.inr ⟨hget, rfl, hget0⟩)
    rw [hget] at hbits ⊢
    exact h.store hbits (stored_get1 r) rfl rfl rfl
  · have hget0 := hlower Signal.sigGet0 (by decide) (by rw [hfinish]; decide)
    have hget1 := hlower Signal.sigGet1 (by decide) (by rw [hfinish]; decide)
    rw [hfinish] at hpending ⊢
    have hended : afterSwitch r.finish = ReceiverPoint.ended r.finish := by
      cases h.receiving with
      | wait _ hflag hlen =>
          have hshort : r.finish.arrLen ≠ 8 := Nat.ne_of_lt hlen
          rw [afterSwitch, if_neg hshort]
          rfl
    change Copying cfg _ sp (afterSwitch r.finish) r.finish
    rw [hended]
    exact h.close hpending hget0 hget1

theorem Copying.receiver_step {cfg : Config} {s s' : State} {sp : SenderPoint}
    {rp : ReceiverPoint} {r : Receiver} (hsender : s.sender = sp.code cfg)
    (hreceiver : s.receiver = rp.code cfg) (h : Copying cfg s.kernel sp rp r)
    (hstep : step cfg s Party.receiver = some s') : Inv cfg s' := by
  cases h.receiving with
  | loop _ hflag hlen =>
      rcases step_receiver hreceiver hstep with ⟨answer, k, hexec, heq⟩
      injection hexec with hexec
      injection hexec with _ hk
      have hnext := h.acknowledged
      rw [heq, ← hk]
      refine ⟨sp, ReceiverPoint.wait r, hsender, rfl, Phase.copying _ _ r ?_⟩
      rw [← h.main] at hnext
      exact hnext
  | wait _ hflag hlen => exact h.receiver_wait hsender hreceiver hstep
  | write _ hflag hlen =>
      rcases step_receiver hreceiver hstep with ⟨answer, k, hexec, heq⟩
      injection hexec with hexec
      injection hexec with _ hk
      rw [heq, ← hk]
      refine ⟨sp, ReceiverPoint.loop { r with arrLen := 0 }, hsender, ?_,
        Phase.copying _ _ _ h.writeByte⟩
      change receiverLoop cfg.recPid (Program.ret { r with arrLen := 0 }) = _
      rw [receiverLoop, Program.again, if_pos hflag]
      rfl
  | ended _ hlen =>
      rw [step, hreceiver] at hstep
      cases hstep

/-!
## The start
-/

theorem exec_sigwaitinfo_none {k k' : Kernel} {p : Pid} {set : List Signal}
    {info : SigInfo} (hnone : forall signal, k.pending p signal = none) :
    k.exec lowest p (Op.sigwaitinfo set) ≠ some (info, k') := by
  intro hexec
  rcases exec_sigwaitinfo hexec with ⟨_, hpending, _⟩
  rw [hnone] at hpending
  cases hpending

theorem copying_start {cfg : Config} {k : Kernel}
    (hsender : forall signal, k.pending cfg.senPid signal = none)
    (hreceiver : forall signal, k.pending cfg.recPid signal = none)
    (hwritten : k.written = []) :
    Copying cfg (k.kill cfg.recPid cfg.senPid Signal.sigContinue)
      SenderPoint.connected (ReceiverPoint.loop cfg.receiver) cfg.receiver := by
  have hsame : forall signal,
      (k.kill cfg.recPid cfg.senPid Signal.sigContinue).pending cfg.recPid
        signal = none := by
    intro signal
    rw [pending_acknowledge]
    exact hreceiver signal
  constructor
  case begun => exact fun hcontra => by cases hcontra
  case receiving => exact Receiving.loop cfg.receiver rfl (Nat.zero_lt_succ 7)
  case main => rfl
  case answers =>
    intro signal q hpending
    rcases pending_of_kill hpending with hbefore | hnew
    · rw [hsender] at hbefore
      cases hbefore
    · exact hnew
  case data =>
    intro signal q hpending
    rw [hsame] at hpending
    cases hpending
  case finished =>
    intro q hpending
    rw [hsame] at hpending
    cases hpending
  case ended => exact fun hcontra => by cases hcontra
  case bits =>
    rw [written_kill, hwritten]
    simp [pendingBits, hsame, Receiver.stored, Config.receiver, bitStream,
      SenderPoint.bitsLeft]

theorem inv_sender {cfg : Config} {s s' : State} (h : Inv cfg s)
    (horder : InOrder s Party.sender)
    (hstep : step cfg s Party.sender = some s') : Inv cfg s' := by
  rcases h with ⟨sp, rp, hsender, hreceiver, hphase⟩
  cases hphase with
  | fresh hnone hwritten =>
      rcases step_sender hsender hstep with ⟨answer, k, hexec, heq⟩
      injection hexec with hexec
      injection hexec with _ hk
      rw [heq, ← hk]
      refine ⟨SenderPoint.connected, ReceiverPoint.first, rfl, hreceiver,
        Phase.calling ?_ ?_ ?_⟩
      · intro signal
        rw [pending_kill_sender]
        exact hnone cfg.senPid signal
      · intro signal
        rw [pending_kill_receiver cfg _ _ _ (hnone _ _), hnone]
      · rw [written_kill]
        exact hwritten
  | calling hnone hcall hwritten =>
      rcases step_sender hsender hstep with ⟨info, k, hexec, heq⟩
      exact absurd hexec (exec_sigwaitinfo_none hnone)
  | chosen hnone hreceiver' hwritten =>
      rcases step_sender hsender hstep with ⟨info, k, hexec, heq⟩
      exact absurd hexec (exec_sigwaitinfo_none hnone)
  | copying sp rp r hcopying =>
      exact hcopying.sender_step hsender hreceiver horder hstep

theorem inv_receiver {cfg : Config} {s s' : State} (h : Inv cfg s)
    (hstep : step cfg s Party.receiver = some s') : Inv cfg s' := by
  rcases h with ⟨sp, rp, hsender, hreceiver, hphase⟩
  cases hphase with
  | fresh hnone hwritten =>
      rcases step_receiver hreceiver hstep with ⟨info, k, hexec, heq⟩
      exact absurd hexec (exec_sigwaitinfo_none (hnone cfg.recPid))
  | calling hnone hcall hwritten =>
      rcases step_receiver hreceiver hstep with ⟨info, k, hexec, heq⟩
      rcases exec_sigwaitinfo hexec with ⟨_, hpending, hk, _⟩
      rw [hcall] at hpending
      split at hpending
      · rename_i hsignal
        injection hpending with hpid
        rw [heq]
        refine ⟨SenderPoint.connected, ReceiverPoint.greet, hsender, ?_,
          Phase.chosen ?_ ?_ ?_⟩
        · change Program.call (Op.kill info.siPid Signal.sigContinue) _ = _
          rw [← hpid]
          rfl
        · intro signal
          rw [hk, pending_take_receiver]
          exact hnone signal
        · intro signal
          rw [hk, hsignal]
          exact take_only hcall signal
        · rw [hk, written_take]
          exact hwritten
      · cases hpending
  | chosen hnone hreceiver' hwritten =>
      rcases step_receiver hreceiver hstep with ⟨answer, k, hexec, heq⟩
      injection hexec with hexec
      injection hexec with _ hk
      rw [heq, ← hk]
      exact ⟨SenderPoint.connected, ReceiverPoint.loop cfg.receiver, hsender,
        rfl, Phase.copying _ _ _ (copying_start hnone hreceiver' hwritten)⟩
  | copying sp rp r hcopying =>
      exact hcopying.receiver_step hsender hreceiver hstep

/-!
## The end
-/

theorem ended_sender {cfg : Config} {sp : SenderPoint}
    (h : Ended (sp.code cfg)) : sp = SenderPoint.ended := by
  cases sp with
  | ended => rfl
  | start => cases h
  | connected => cases h
  | bit value arr file => cases h
  | wait arr file => cases h
  | finish => cases h

theorem ended_receiver {cfg : Config} {rp : ReceiverPoint}
    (h : Ended (rp.code cfg)) : exists r, rp = ReceiverPoint.ended r := by
  cases rp with
  | ended r => exact ⟨r, rfl⟩
  | first => cases h
  | greet => cases h
  | loop r => cases h
  | wait r => cases h
  | write r => cases h

theorem Copying.delivered {cfg : Config} {k : Kernel} {r r' : Receiver}
    (h : Copying cfg k SenderPoint.ended (ReceiverPoint.ended r') r) :
    k.written = cfg.content := by
  cases h.receiving with
  | ended _ hlen =>
      have hnone := (h.ended rfl).right
      have hbits := h.bits
      rw [fileBits_eq] at hbits
      simp only [pendingBits, hnone, SenderPoint.bitsLeft, Option.isSome_none,
        Bool.false_eq_true, if_false, List.append_nil] at hbits
      have hlength := congrArg List.length hbits
      rw [List.length_append, bitStream_length, bitStream_length,
        stored_length] at hlength
      have hempty : r.arrLen = 0 := by
        lia
      rw [Receiver.stored, hempty, List.range_zero, List.map_nil,
        List.append_nil] at hbits
      have hlt : forall bytes : Bytes, forall num,
          num ∈ bytes.map UInt8.toNat -> num < 2 ^ 8 := by
        intro bytes num hnum
        rcases List.mem_map.mp hnum with ⟨b, _, heq⟩
        rw [← heq]
        exact b.toNat_lt
      have hnums := bitStream_injective (by decide) (hlt _) (hlt _) hbits
      exact List.map_injective_iff.mpr (fun _ _ => UInt8.toNat.inj) hnums

/-- The file arrives whole in every run in which no data signal is merged or
overtaken. -/
theorem file_delivered {cfg : Config} {parties : List Party} {s : State}
    (horder : AllSteps (step cfg) InOrder cfg.start parties)
    (hrun : run (step cfg) cfg.start parties = some s)
    (hsender : Ended s.sender) (hreceiver : Ended s.receiver) :
    s.kernel.written = cfg.content := by
  have hinv : Inv cfg s := by
    apply run_invariant (Inv cfg) _ (inv_start cfg) horder hrun
    intro s party s' hinv hguard hstep
    cases party with
    | sender => exact inv_sender hinv hguard hstep
    | receiver => exact inv_receiver hinv hstep
  rcases hinv with ⟨sp, rp, hsp, hrp, hphase⟩
  rw [hsp] at hsender
  rw [hrp] at hreceiver
  have hsp' := ended_sender hsender
  rcases ended_receiver hreceiver with ⟨r', hrp'⟩
  rw [hsp', hrp'] at hphase
  cases hphase with
  | copying _ _ r hcopying => exact hcopying.delivered

def oneByte (symbol : UInt8) : Config where
  senPid := 1
  recPid := 2
  distinct := by decide
  file := [(symbol, 0)]
  arr := fun _ => 0

def inTurns : List Party :=
  [Party.sender, Party.receiver, Party.receiver, Party.receiver,
    Party.sender] ++
    (List.replicate 7
      [Party.sender, Party.receiver, Party.receiver, Party.sender]).flatten ++
    [Party.sender, Party.receiver, Party.receiver, Party.receiver,
      Party.sender, Party.sender, Party.receiver]

theorem file_delivered_in_turns :
    exists s, run (step (oneByte 0x05)) (oneByte 0x05).start inTurns = some s ∧
      s.kernel.written = [0x05] := by
  have hrun : exists s,
      run (step (oneByte 0x05)) (oneByte 0x05).start inTurns = some s ∧
        Ended s.sender ∧ Ended s.receiver :=
    ⟨_, rfl, rfl, rfl⟩
  rcases hrun with ⟨s, hrun, hsender, hreceiver⟩
  have horder :
      AllSteps (step (oneByte 0x05)) InOrder (oneByte 0x05).start inTurns := by
    decide +kernel
  exact ⟨s, hrun, file_delivered horder hrun hsender hreceiver⟩

/-- The sender takes both acknowledgements before the receiver has taken the
first bit: the second bit is merged into it, and the byte never completes. -/
def oneBitAhead : List Party :=
  [Party.sender, Party.receiver, Party.receiver, Party.sender, Party.sender,
    Party.receiver, Party.sender, Party.sender] ++
    (List.replicate 7
      [Party.receiver, Party.receiver, Party.sender, Party.sender]).flatten ++
    [Party.receiver]

theorem file_lost :
    exists s, run (step (oneByte 0x00)) (oneByte 0x00).start oneBitAhead = some s ∧
      Ended s.sender ∧ Ended s.receiver ∧ s.kernel.written = [] ∧
      (oneByte 0x00).content ≠ [] :=
  ⟨_, rfl, rfl, rfl, rfl, by decide⟩

end SignalCopy
end UnixPrograms
