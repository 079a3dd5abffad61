import UnixPrograms.SignalCopy.Transfer

/-!
# Any order of the pending signals

POSIX leaves it to the system which of several pending signals is taken next.
Here each step of a party carries the signal that it takes if it waits, so
that a run fixes both the interleaving and every such choice.  Bits may now be
merged and overtaken, but there is always a signal under way that lets one of
the parties go on.
-/

namespace UnixPrograms
namespace SignalCopy

open Foundation

def taking (signal : Signal) (signals : List Signal) : Option Signal :=
  if signal ∈ signals then some signal else none

theorem exec_taking {k k' : Kernel} {p : Pid} {set : List Signal}
    {signal : Signal} {info : SigInfo}
    (h : k.exec (taking signal) p (Op.sigwaitinfo set) = some (info, k')) :
    info.signal = signal ∧ signal ∈ set ∧
      k.pending p signal = some info.siPid ∧ k' = k.take p signal := by
  by_cases hmem : signal ∈ k.waiting p set
  · cases hpending : k.pending p signal with
    | none =>
        simp only [Kernel.exec, taking, if_pos hmem, hpending] at h
        cases h
    | some siPid =>
        simp only [Kernel.exec, taking, if_pos hmem, hpending] at h
        cases h
        exact ⟨rfl, (mem_waiting.mp hmem).left, rfl, rfl⟩
  · simp only [Kernel.exec, taking, if_neg hmem] at h
    cases h

/-- The next operation of a party, and the signal it takes if that is a
wait. -/
structure Turn where
  party : Party
  signal : Signal

def stepAny (cfg : Config) (s : State) (turn : Turn) : Option State :=
  match turn.party with
  | Party.sender =>
      (Program.step (Kernel.exec (taking turn.signal) cfg.senPid) s.sender
        s.kernel).map
        (fun after => { s with sender := after.1, kernel := after.2 })
  | Party.receiver =>
      (Program.step (Kernel.exec (taking turn.signal) cfg.recPid) s.receiver
        s.kernel).map
        (fun after =>
          { s with
            receiver := receiverLoop cfg.recPid after.1
            kernel := after.2 })

def Idle {alpha : Type} (k : Kernel) (p : Pid) (code : Prog alpha) : Prop :=
  match code.nextOp with
  | none => True
  | some (Op.sigwaitinfo set) => k.waiting p set = []
  | some _ => False

def Stuck (cfg : Config) (s : State) : Prop :=
  Idle s.kernel cfg.senPid s.sender ∧ Idle s.kernel cfg.recPid s.receiver

theorem stepAny_sender {cfg : Config} {s s' : State} {signal : Signal} {op : Op}
    {next : op.Res -> Prog Unit} (hcode : s.sender = Program.call op next)
    (hstep : stepAny cfg s { party := Party.sender, signal := signal } = some s') :
    exists answer k,
      s.kernel.exec (taking signal) cfg.senPid op = some (answer, k) ∧
      s' = { s with sender := next answer, kernel := k } := by
  rcases Option.map_eq_some_iff.mp hstep with ⟨⟨code, k⟩, hexec, heq⟩
  rw [hcode] at hexec
  rcases Program.step_call_eq_some hexec with ⟨answer, hanswer, hnext⟩
  exact ⟨answer, k, hanswer, by rw [← heq, hnext]⟩

theorem stepAny_receiver {cfg : Config} {s s' : State} {signal : Signal}
    {op : Op} {next : op.Res -> Prog Receiver}
    (hcode : s.receiver = Program.call op next)
    (hstep :
      stepAny cfg s { party := Party.receiver, signal := signal } = some s') :
    exists answer k,
      s.kernel.exec (taking signal) cfg.recPid op = some (answer, k) ∧
      s' =
        { s with
          receiver := receiverLoop cfg.recPid (next answer)
          kernel := k } := by
  rcases Option.map_eq_some_iff.mp hstep with ⟨⟨code, k⟩, hexec, heq⟩
  rw [hcode] at hexec
  rcases Program.step_call_eq_some hexec with ⟨answer, hanswer, hnext⟩
  exact ⟨answer, k, hanswer, by rw [← heq, hnext]⟩

theorem Idle.none_pending {k : Kernel} {p : Pid} {set : List Signal}
    {alpha : Type} {next : SigInfo -> Prog alpha}
    (h : Idle k p (Program.call (Op.sigwaitinfo set) next)) {signal : Signal}
    (hset : signal ∈ set) : k.pending p signal = none := by
  have hwaiting : k.waiting p set = [] := h
  cases hpending : k.pending p signal with
  | none => rfl
  | some q =>
      have hmem : signal ∈ k.waiting p set :=
        mem_waiting.mpr ⟨hset, by rw [hpending]; rfl⟩
      rw [hwaiting] at hmem
      cases hmem

/-!
## What keeps the parties going

While both parties wait, one of them has a signal pending.  Merging two signals
leaves one of them, which is enough.
-/

def SenderPoint.Waits : SenderPoint -> Prop
  | SenderPoint.connected => True
  | SenderPoint.wait _ _ => True
  | _ => False

/-- The two parties once the receiver has entered its loop.  While both of
them wait, a signal is pending for one of them. -/
structure Flowing (cfg : Config) (k : Kernel) (sp : SenderPoint)
    (rp : ReceiverPoint) (r : Receiver) : Prop where
  begun : sp ≠ SenderPoint.start
  receiving : Receiving rp r
  main : r.senPid = cfg.senPid
  answers : forall signal q, k.pending cfg.senPid signal = some q ->
    signal = Signal.sigContinue ∧ q = cfg.recPid
  data : forall signal q, k.pending cfg.recPid signal = some q ->
    q = cfg.senPid ∧ (signal = Signal.sigGet0 ∨ signal = Signal.sigGet1 ∨
      signal = Signal.sigFinish)
  finished : forall q, k.pending cfg.recPid Signal.sigFinish = some q ->
    sp = SenderPoint.ended
  ended : rp = ReceiverPoint.ended r -> sp = SenderPoint.ended
  closing : sp = SenderPoint.ended -> rp = ReceiverPoint.ended r ∨
    exists q, k.pending cfg.recPid Signal.sigFinish = some q
  underWay : sp.Waits -> rp = ReceiverPoint.wait r ->
    (exists q, k.pending cfg.senPid Signal.sigContinue = some q) ∨
      exists signal q, k.pending cfg.recPid signal = some q

inductive Stage (cfg : Config) (k : Kernel) :
    SenderPoint -> ReceiverPoint -> Prop where
  | fresh (hnone : forall p signal, k.pending p signal = none) :
      Stage cfg k SenderPoint.start ReceiverPoint.first
  | calling (hsender : forall signal, k.pending cfg.senPid signal = none)
      (hreceiver : forall signal, k.pending cfg.recPid signal =
        if signal = Signal.sigContinue then some cfg.senPid else none) :
      Stage cfg k SenderPoint.connected ReceiverPoint.first
  | chosen (hsender : forall signal, k.pending cfg.senPid signal = none)
      (hreceiver : forall signal, k.pending cfg.recPid signal = none) :
      Stage cfg k SenderPoint.connected ReceiverPoint.greet
  | flowing (sp : SenderPoint) (rp : ReceiverPoint) (r : Receiver)
      (h : Flowing cfg k sp rp r) : Stage cfg k sp rp

def Live (cfg : Config) (s : State) : Prop :=
  exists sp rp, s.sender = sp.code cfg ∧ s.receiver = rp.code cfg ∧
    Stage cfg s.kernel sp rp

theorem live_start (cfg : Config) : Live cfg cfg.start :=
  ⟨SenderPoint.start, ReceiverPoint.first, rfl, rfl,
    Stage.fresh (fun _ _ => rfl)⟩

/-!
## Steps of the sender
-/

theorem Flowing.pending_send {cfg : Config} {k : Kernel} {sp : SenderPoint}
    {rp : ReceiverPoint} {r : Receiver} (h : Flowing cfg k sp rp r)
    (signal sig : Signal) :
    (k.kill cfg.senPid cfg.recPid signal).pending cfg.recPid sig =
      if sig = signal then some cfg.senPid else k.pending cfg.recPid sig := by
  rw [pending_kill]
  by_cases hsig : sig = signal
  · rw [if_pos ⟨rfl, hsig⟩, if_pos hsig]
    cases hpending : k.pending cfg.recPid signal with
    | none => rfl
    | some q => rw [(h.data signal q hpending).left]; rfl
  · rw [if_neg (fun hboth => hsig hboth.right), if_neg hsig]

theorem nextPoint_goes_on (arr : List Nat) (file : List (UInt8 × UInt32)) :
    nextPoint arr file ≠ SenderPoint.ended ∧ ¬ (nextPoint arr file).Waits := by
  cases arr with
  | cons value arr => exact ⟨SenderPoint.noConfusion, fun h => h⟩
  | nil =>
      cases file with
      | nil => exact ⟨SenderPoint.noConfusion, fun h => h⟩
      | cons entry file => exact ⟨SenderPoint.noConfusion, fun h => h⟩

theorem Flowing.acknowledge {cfg : Config} {k : Kernel} {sp : SenderPoint}
    {rp : ReceiverPoint} {r : Receiver} (h : Flowing cfg k sp rp r)
    (hsp : sp.Waits) (signal : Signal) (arr : List Nat)
    (file : List (UInt8 × UInt32)) :
    Flowing cfg (k.take cfg.senPid signal) (nextPoint arr file) rp r := by
  have hwaits : sp ≠ SenderPoint.ended := by
    intro hended
    rw [hended] at hsp
    exact hsp
  rcases nextPoint_goes_on arr file with ⟨hgoes, hsends⟩
  constructor
  case begun => exact nextPoint_begun arr file
  case receiving => exact h.receiving
  case main => exact h.main
  case answers =>
    intro sig q hpending
    exact h.answers sig q (take_pending hpending)
  case data =>
    intro sig q hpending
    rw [pending_take_sender] at hpending
    exact h.data sig q hpending
  case finished =>
    intro q hpending
    rw [pending_take_sender] at hpending
    exact absurd (h.finished q hpending) hwaits
  case ended => exact fun hrp => absurd (h.ended hrp) hwaits
  case closing => exact fun hended => absurd hended hgoes
  case underWay => exact fun hcontra => absurd hcontra hsends

theorem Flowing.send {cfg : Config} {k : Kernel} {value : Nat} {arr : List Nat}
    {file : List (UInt8 × UInt32)} {rp : ReceiverPoint} {r : Receiver}
    (h : Flowing cfg k (SenderPoint.bit value arr file) rp r) {signal : Signal}
    (hsignal : signal = if value = 0 then Signal.sigGet0 else Signal.sigGet1) :
    Flowing cfg (k.kill cfg.senPid cfg.recPid signal)
      (SenderPoint.wait arr file) rp r := by
  have hdata := signal_of_bit hsignal
  constructor
  case begun => exact fun hcontra => by cases hcontra
  case receiving => exact h.receiving
  case main => exact h.main
  case answers => exact answers_kill h.answers
  case data => exact data_kill (hdata.imp_right Or.inl) h.data
  case finished =>
    intro q hpending
    rw [h.pending_send, if_neg] at hpending
    · cases h.finished q hpending
    · intro heq
      rcases hdata with hcase | hcase
      · rw [hcase] at heq
        cases heq
      · rw [hcase] at heq
        cases heq
  case ended =>
    intro hrp
    cases h.ended hrp
  case closing =>
    intro hcontra
    cases hcontra
  case underWay =>
    intro _ _
    exact Or.inr ⟨signal, cfg.senPid, by rw [h.pending_send, if_pos rfl]⟩

theorem Flowing.announce {cfg : Config} {k : Kernel} {rp : ReceiverPoint}
    {r : Receiver} (h : Flowing cfg k SenderPoint.finish rp r) :
    Flowing cfg (k.kill cfg.senPid cfg.recPid Signal.sigFinish)
      SenderPoint.ended rp r := by
  constructor
  case begun => exact fun hcontra => by cases hcontra
  case receiving => exact h.receiving
  case main => exact h.main
  case answers => exact answers_kill h.answers
  case data => exact data_kill (Or.inr (Or.inr rfl)) h.data
  case finished => exact fun q hpending => rfl
  case ended => exact fun hrp => rfl
  case closing =>
    intro _
    exact Or.inr ⟨cfg.senPid, by rw [h.pending_send, if_pos rfl]⟩
  case underWay => exact fun hcontra => hcontra.elim

theorem Flowing.taken {cfg : Config} {k k' : Kernel} {sp : SenderPoint}
    {rp : ReceiverPoint} {r : Receiver} (h : Flowing cfg k sp rp r)
    {signal : Signal} {info : SigInfo}
    (hexec : k.exec (taking signal) cfg.senPid (Op.sigwaitinfo senderSigset) =
      some (info, k')) :
    info = { signal := Signal.sigContinue, siPid := cfg.recPid } ∧
      k' = k.take cfg.senPid signal := by
  rcases exec_taking hexec with ⟨hinfo, _, hpending, hk⟩
  rcases h.answers signal info.siPid hpending with ⟨hsignal, hpid⟩
  refine ⟨?_, hk⟩
  rw [← hsignal, ← hinfo, ← hpid]

theorem Flowing.sender_step {cfg : Config} {s s' : State} {sp : SenderPoint}
    {rp : ReceiverPoint} {r : Receiver} {signal : Signal}
    (hsender : s.sender = sp.code cfg) (hreceiver : s.receiver = rp.code cfg)
    (h : Flowing cfg s.kernel sp rp r)
    (hstep : stepAny cfg s { party := Party.sender, signal := signal } = some s') :
    Live cfg s' := by
  cases sp with
  | start => exact absurd rfl h.begun
  | connected =>
      rcases stepAny_sender hsender hstep with ⟨info, k, hexec, heq⟩
      rcases h.taken hexec with ⟨hinfo, hk⟩
      rw [heq, hinfo, hk]
      exact ⟨_, rp, nextPoint_code cfg [] cfg.file, hreceiver,
        Stage.flowing _ rp r (h.acknowledge trivial signal [] cfg.file)⟩
  | bit value arr file =>
      rcases stepAny_sender hsender hstep with ⟨answer, k, hexec, heq⟩
      injection hexec with hexec
      injection hexec with _ hk
      rw [heq, ← hk]
      exact ⟨SenderPoint.wait arr file, rp, rfl, hreceiver,
        Stage.flowing _ rp r (h.send rfl)⟩
  | wait arr file =>
      rcases stepAny_sender hsender hstep with ⟨info, k, hexec, heq⟩
      rcases h.taken hexec with ⟨hinfo, hk⟩
      rw [heq, hinfo, hk, sendBitesAnswer_continue]
      exact ⟨_, rp, nextPoint_code cfg arr file, hreceiver,
        Stage.flowing _ rp r (h.acknowledge trivial signal arr file)⟩
  | finish =>
      rcases stepAny_sender hsender hstep with ⟨answer, k, hexec, heq⟩
      injection hexec with hexec
      injection hexec with _ hk
      rw [heq, ← hk]
      exact ⟨SenderPoint.ended, rp, rfl, hreceiver,
        Stage.flowing _ rp r h.announce⟩
  | ended =>
      rw [stepAny, hsender] at hstep
      cases hstep

/-!
## Steps of the receiver
-/

theorem Flowing.acknowledged {cfg : Config} {k : Kernel} {sp : SenderPoint}
    {r : Receiver} (h : Flowing cfg k sp (ReceiverPoint.loop r) r)
    (hflag : r.flag = true) (hlen : r.arrLen < 8) :
    Flowing cfg (k.kill cfg.recPid cfg.senPid Signal.sigContinue) sp
      (ReceiverPoint.wait r) r := by
  have hsame := pending_acknowledge cfg k Signal.sigContinue
  constructor
  case begun => exact h.begun
  case receiving => exact Receiving.wait r hflag hlen
  case main => exact h.main
  case answers =>
    intro sig q hpending
    rcases pending_of_kill hpending with hbefore | hnew
    · exact h.answers sig q hbefore
    · exact hnew
  case data =>
    intro sig q hpending
    rw [hsame] at hpending
    exact h.data sig q hpending
  case finished =>
    intro q hpending
    rw [hsame] at hpending
    exact h.finished q hpending
  case ended => exact fun hcontra => by cases hcontra
  case closing =>
    intro hended
    rcases h.closing hended with hcontra | ⟨q, hpending⟩
    · cases hcontra
    · exact Or.inr ⟨q, by rw [hsame]; exact hpending⟩
  case underWay =>
    intro _ _
    exact Or.inl ⟨_, by rw [pending_kill, if_pos ⟨rfl, rfl⟩]⟩

theorem Flowing.receiver_at {cfg : Config} {k k' : Kernel} {sp : SenderPoint}
    {rp rp' : ReceiverPoint} {r r' : Receiver} (h : Flowing cfg k sp rp r)
    (hpending : forall p signal q, k'.pending p signal = some q ->
      k.pending p signal = some q)
    (hreceiving : Receiving rp' r') (hmain : r'.senPid = r.senPid)
    (hended : rp' = ReceiverPoint.ended r' -> sp = SenderPoint.ended)
    (hclosing : sp = SenderPoint.ended -> rp' = ReceiverPoint.ended r' ∨
      exists q, k'.pending cfg.recPid Signal.sigFinish = some q)
    (hbusy : rp' ≠ ReceiverPoint.wait r') : Flowing cfg k' sp rp' r' where
  begun := h.begun
  receiving := hreceiving
  main := hmain.trans h.main
  answers signal q hq := h.answers signal q (hpending _ _ _ hq)
  data signal q hq := h.data signal q (hpending _ _ _ hq)
  finished q hq := h.finished q (hpending _ _ _ hq)
  ended := hended
  closing := hclosing
  underWay _ hcontra := absurd hcontra hbusy

theorem Flowing.took {cfg : Config} {k : Kernel} {sp : SenderPoint}
    {r : Receiver} (h : Flowing cfg k sp (ReceiverPoint.wait r) r)
    {signal : Signal} {q : Pid}
    (hpending : k.pending cfg.recPid signal = some q) :
    Flowing cfg (k.take cfg.recPid signal) sp (afterSwitch (r.switch signal))
      (r.switch signal) := by
  have hnow : r.flag = true ∧ r.arrLen < 8 := by
    cases h.receiving with
    | wait _ hflag hlen => exact ⟨hflag, hlen⟩
  have hbit : forall r' : Receiver, r'.senPid = r.senPid ->
      r'.flag = r.flag -> r'.arrLen = r.arrLen + 1 ->
      signal ≠ Signal.sigFinish ->
      Flowing cfg (k.take cfg.recPid signal) sp (afterSwitch r') r' := by
    intro r' hmain hflag hlen hother
    have hrest : sp = SenderPoint.ended ->
        exists q, (k.take cfg.recPid signal).pending cfg.recPid
          Signal.sigFinish = some q := by
      intro hended
      rcases h.closing hended with hcontra | ⟨q, hfinish⟩
      · cases hcontra
      · refine ⟨q, ?_⟩
        rw [pending_take, if_neg (fun heq => hother heq.right.symm)]
        exact hfinish
    rw [hnow.left] at hflag
    by_cases hfull : r'.arrLen = 8
    · rw [afterSwitch, if_pos hfull]
      exact h.receiver_at (fun _ _ _ => take_pending)
        (Receiving.write r' hflag hfull) hmain ReceiverPoint.noConfusion
        (fun hended => Or.inr (hrest hended)) ReceiverPoint.noConfusion
    · rw [afterSwitch, if_neg hfull, if_pos hflag]
      exact h.receiver_at (fun _ _ _ => take_pending)
        (Receiving.loop r' hflag (by lia)) hmain ReceiverPoint.noConfusion
        (fun hended => Or.inr (hrest hended)) ReceiverPoint.noConfusion
  rcases (h.data signal q hpending).right with hsignal | hsignal | hsignal
  · rw [hsignal] at hbit ⊢
    exact hbit r.get0 rfl rfl rfl (by decide)
  · rw [hsignal] at hbit ⊢
    exact hbit r.get1 rfl rfl rfl (by decide)
  · rw [hsignal] at hpending ⊢
    have hshort : r.finish.arrLen ≠ 8 := Nat.ne_of_lt hnow.right
    change Flowing cfg _ sp (afterSwitch r.finish) r.finish
    rw [afterSwitch, if_neg hshort]
    exact h.receiver_at (fun _ _ _ => take_pending)
      (Receiving.ended r.finish hnow.right) rfl
      (fun _ => h.finished q hpending) (fun _ => Or.inl rfl)
      ReceiverPoint.noConfusion

theorem Flowing.receiver_wait {cfg : Config} {s s' : State} {sp : SenderPoint}
    {r : Receiver} {signal : Signal} (hsender : s.sender = sp.code cfg)
    (hreceiver : s.receiver = receiverWait cfg.recPid r)
    (h : Flowing cfg s.kernel sp (ReceiverPoint.wait r) r)
    (hstep :
      stepAny cfg s { party := Party.receiver, signal := signal } = some s') :
    Live cfg s' := by
  rcases stepAny_receiver hreceiver hstep with ⟨info, k, hexec, heq⟩
  rcases exec_taking hexec with ⟨hinfo, _, hpending, hk⟩
  have hpid := (h.data signal info.siPid hpending).left
  have hcode : s'.receiver = (afterSwitch (r.switch signal)).code cfg := by
    rw [heq, ← afterSwitch_code]
    change receiverLoop cfg.recPid (if r.senPid = info.siPid then _ else _) = _
    rw [if_pos (h.main.trans hpid.symm), hinfo]
    rfl
  have hsender' : s'.sender = sp.code cfg := by
    rw [heq]
    exact hsender
  have hkernel : s'.kernel = s.kernel.take cfg.recPid signal := by
    rw [heq, hk]
  refine ⟨sp, _, hsender', hcode, Stage.flowing _ _ (r.switch signal) ?_⟩
  rw [hkernel]
  exact h.took hpending

theorem Flowing.receiver_step {cfg : Config} {s s' : State} {sp : SenderPoint}
    {rp : ReceiverPoint} {r : Receiver} {signal : Signal}
    (hsender : s.sender = sp.code cfg) (hreceiver : s.receiver = rp.code cfg)
    (h : Flowing cfg s.kernel sp rp r)
    (hstep :
      stepAny cfg s { party := Party.receiver, signal := signal } = some s') :
    Live cfg s' := by
  cases h.receiving with
  | loop _ hflag hlen =>
      rcases stepAny_receiver hreceiver hstep with ⟨answer, k, hexec, heq⟩
      injection hexec with hexec
      injection hexec with _ hk
      have hnext := h.acknowledged hflag hlen
      rw [← h.main] at hnext
      rw [heq, ← hk]
      exact ⟨sp, ReceiverPoint.wait r, hsender, rfl,
        Stage.flowing _ _ r hnext⟩
  | wait _ hflag hlen => exact h.receiver_wait hsender hreceiver hstep
  | write _ hflag hlen =>
      rcases stepAny_receiver hreceiver hstep with ⟨answer, k, hexec, heq⟩
      injection hexec with hexec
      injection hexec with _ hk
      have hnext : Flowing cfg
          { s.kernel with written := s.kernel.written ++ [UInt8.ofNat r.num] }
          sp (ReceiverPoint.loop { r with arrLen := 0 })
          { r with arrLen := 0 } := by
        refine h.receiver_at (fun _ _ _ hq => hq)
          (Receiving.loop { r with arrLen := 0 } hflag (Nat.zero_lt_succ 7)) rfl
          ReceiverPoint.noConfusion ?_ ReceiverPoint.noConfusion
        intro hended
        rcases h.closing hended with hcontra | hfinish
        · cases hcontra
        · exact Or.inr hfinish
      rw [heq, ← hk]
      refine ⟨sp, ReceiverPoint.loop { r with arrLen := 0 }, hsender, ?_,
        Stage.flowing _ _ _ hnext⟩
      change receiverLoop cfg.recPid (Program.ret { r with arrLen := 0 }) = _
      rw [receiverLoop, Program.again, if_pos hflag]
      rfl
  | ended _ hlen =>
      rw [stepAny, hreceiver] at hstep
      cases hstep

/-!
## Every run
-/

theorem exec_taking_none {k k' : Kernel} {p : Pid} {set : List Signal}
    {signal : Signal} {info : SigInfo}
    (hnone : forall signal, k.pending p signal = none) :
    k.exec (taking signal) p (Op.sigwaitinfo set) ≠ some (info, k') := by
  intro hexec
  rcases exec_taking hexec with ⟨_, _, hpending, _⟩
  rw [hnone] at hpending
  cases hpending

theorem flowing_start {cfg : Config} {k : Kernel}
    (hsender : forall signal, k.pending cfg.senPid signal = none)
    (hreceiver : forall signal, k.pending cfg.recPid signal = none) :
    Flowing cfg (k.kill cfg.recPid cfg.senPid Signal.sigContinue)
      SenderPoint.connected (ReceiverPoint.loop cfg.receiver) cfg.receiver := by
  have hsame : forall signal,
      (k.kill cfg.recPid cfg.senPid Signal.sigContinue).pending cfg.recPid
        signal = none := by
    intro signal
    rw [pending_acknowledge]
    exact hreceiver signal
  constructor
  case begun => exact SenderPoint.noConfusion
  case receiving => exact Receiving.loop cfg.receiver rfl (Nat.zero_lt_succ 7)
  case main => rfl
  case answers =>
    intro signal q hpending
    rcases pending_of_kill hpending with hbefore | hnew
    · rw [hsender] at hbefore
      cases hbefore
    · exact hnew
  case data =>
    intro signal q hpending
    rw [hsame] at hpending
    cases hpending
  case finished =>
    intro q hpending
    rw [hsame] at hpending
    cases hpending
  case ended => exact fun hcontra => by cases hcontra
  case closing => exact fun hcontra => by cases hcontra
  case underWay => exact fun _ hcontra => by cases hcontra

theorem live_sender {cfg : Config} {s s' : State} {signal : Signal}
    (h : Live cfg s)
    (hstep : stepAny cfg s { party := Party.sender, signal := signal } = some s') :
    Live cfg s' := by
  rcases h with ⟨sp, rp, hsender, hreceiver, hstage⟩
  cases hstage with
  | fresh hnone =>
      rcases stepAny_sender hsender hstep with ⟨answer, k, hexec, heq⟩
      injection hexec with hexec
      injection hexec with _ hk
      rw [heq, ← hk]
      refine ⟨SenderPoint.connected, ReceiverPoint.first, rfl, hreceiver,
        Stage.calling ?_ ?_⟩
      · intro signal
        rw [pending_kill_sender]
        exact hnone cfg.senPid signal
      · intro signal
        rw [pending_kill_receiver cfg _ _ _ (hnone _ _), hnone]
  | calling hnone hcall =>
      rcases stepAny_sender hsender hstep with ⟨info, k, hexec, heq⟩
      exact absurd hexec (exec_taking_none hnone)
  | chosen hnone hreceiver' =>
      rcases stepAny_sender hsender hstep with ⟨info, k, hexec, heq⟩
      exact absurd hexec (exec_taking_none hnone)
  | flowing sp rp r h => exact h.sender_step hsender hreceiver hstep

theorem live_receiver {cfg : Config} {s s' : State} {signal : Signal}
    (h : Live cfg s)
    (hstep :
      stepAny cfg s { party := Party.receiver, signal := signal } = some s') :
    Live cfg s' := by
  rcases h with ⟨sp, rp, hsender, hreceiver, hstage⟩
  cases hstage with
  | fresh hnone =>
      rcases stepAny_receiver hreceiver hstep with ⟨info, k, hexec, heq⟩
      exact absurd hexec (exec_taking_none (hnone cfg.recPid))
  | calling hnone hcall =>
      rcases stepAny_receiver hreceiver hstep with ⟨info, k, hexec, heq⟩
      rcases exec_taking hexec with ⟨_, _, hpending, hk⟩
      rw [hcall] at hpending
      split at hpending
      · rename_i hsignal
        injection hpending with hpid
        rw [heq]
        refine ⟨SenderPoint.connected, ReceiverPoint.greet, hsender, ?_,
          Stage.chosen ?_ ?_⟩
        · change Program.call (Op.kill info.siPid Signal.sigContinue) _ = _
          rw [← hpid]
          rfl
        · intro sig
          rw [hk, pending_take_receiver]
          exact hnone sig
        · intro sig
          rw [hk, hsignal]
          exact take_only hcall sig
      · cases hpending
  | chosen hnone hreceiver' =>
      rcases stepAny_receiver hreceiver hstep with ⟨answer, k, hexec, heq⟩
      injection hexec with hexec
      injection hexec with _ hk
      rw [heq, ← hk]
      exact ⟨SenderPoint.connected, ReceiverPoint.loop cfg.receiver, hsender,
        rfl, Stage.flowing _ _ _ (flowing_start hnone hreceiver')⟩
  | flowing sp rp r h => exact h.receiver_step hsender hreceiver hstep

theorem live_run {cfg : Config} {turns : List Turn} {s : State}
    (hrun : run (stepAny cfg) cfg.start turns = some s) : Live cfg s := by
  apply run_invariant (Live cfg) _ (live_start cfg)
    (allSteps_of_forall (fun _ _ => trivial) turns cfg.start) hrun
  intro s turn s' hlive _ hstep
  cases turn with
  | mk party signal =>
      cases party with
      | sender => exact live_sender hlive hstep
      | receiver => exact live_receiver hlive hstep

theorem Flowing.all_ended {cfg : Config} {k : Kernel} {sp : SenderPoint}
    {rp : ReceiverPoint} {r : Receiver} (h : Flowing cfg k sp rp r)
    (hsender : Idle k cfg.senPid (sp.code cfg))
    (hreceiver : Idle k cfg.recPid (rp.code cfg)) :
    sp = SenderPoint.ended ∧ rp = ReceiverPoint.ended r := by
  have hdata : rp = ReceiverPoint.wait r ->
      forall signal, k.pending cfg.recPid signal = none := by
    intro hrp signal
    rw [hrp] at hreceiver
    apply Idle.none_pending hreceiver
    cases signal <;> decide
  have hquiet : rp = ReceiverPoint.wait r -> ¬ sp.Waits := by
    intro hrp hwaits
    have hanswer : k.pending cfg.senPid Signal.sigContinue = none := by
      cases sp with
      | connected => exact Idle.none_pending hsender (by decide)
      | wait arr file => exact Idle.none_pending hsender (by decide)
      | start => exact hwaits.elim
      | bit value arr file => exact hwaits.elim
      | finish => exact hwaits.elim
      | ended => exact hwaits.elim
    rcases h.underWay hwaits hrp with ⟨q, hpending⟩ | ⟨signal, q, hpending⟩
    · rw [hanswer] at hpending
      cases hpending
    · rw [hdata hrp signal] at hpending
      cases hpending
  cases h.receiving with
  | loop _ hflag hlen => exact hreceiver.elim
  | write _ hflag hlen => exact hreceiver.elim
  | ended _ hlen => exact ⟨h.ended rfl, rfl⟩
  | wait _ hflag hlen =>
      cases sp with
      | start => exact hsender.elim
      | bit value arr file => exact hsender.elim
      | finish => exact hsender.elim
      | connected => exact absurd trivial (hquiet rfl)
      | wait arr file => exact absurd trivial (hquiet rfl)
      | ended =>
          rcases h.closing rfl with hcontra | ⟨q, hpending⟩
          · cases hcontra
          · rw [hdata rfl] at hpending
            cases hpending

/-- Whatever is merged, and in whatever order signals are taken, the two
parties go on until both have ended. -/
theorem never_stuck {cfg : Config} {turns : List Turn} {s : State}
    (hrun : run (stepAny cfg) cfg.start turns = some s)
    (hstuck : Stuck cfg s) : Ended s.sender ∧ Ended s.receiver := by
  rcases live_run hrun with ⟨sp, rp, hsender, hreceiver, hstage⟩
  rcases hstuck with ⟨hidle, hidle'⟩
  rw [hsender] at hidle ⊢
  rw [hreceiver] at hidle' ⊢
  cases hstage with
  | fresh hnone => exact hidle.elim
  | calling hnone hcall =>
      have hcontra : s.kernel.pending cfg.recPid Signal.sigContinue = none :=
        Idle.none_pending hidle' (by decide)
      rw [hcall, if_pos rfl] at hcontra
      cases hcontra
  | chosen hnone hreceiver' => exact hidle'.elim
  | flowing sp rp r h =>
      rcases h.all_ended hidle hidle' with ⟨hsp, hrp⟩
      rw [hsp, hrp]
      exact ⟨rfl, rfl⟩

def turn (party : Party) (signal : Signal) : Turn where
  party := party
  signal := signal

/-- The sender is one bit ahead.  The one bit of the byte overtakes the first of
the zeros, the next two zeros are merged, and the byte never completes. -/
def overtakenTurns : List Turn :=
  [turn Party.sender Signal.sigContinue, turn Party.receiver Signal.sigContinue,
    turn Party.receiver Signal.sigContinue, turn Party.sender Signal.sigContinue,
    turn Party.sender Signal.sigGet0, turn Party.receiver Signal.sigContinue,
    turn Party.sender Signal.sigContinue, turn Party.sender Signal.sigGet1] ++
    ([Signal.sigGet1] ++ List.replicate 6 Signal.sigGet0).flatMap
      (fun signal =>
        [turn Party.receiver signal, turn Party.receiver Signal.sigContinue,
          turn Party.sender Signal.sigContinue, turn Party.sender signal]) ++
    [turn Party.receiver Signal.sigFinish]

theorem never_stuck_overtaken :
    exists s, run (stepAny (oneByte 0x02)) (oneByte 0x02).start overtakenTurns =
        some s ∧ Ended s.sender ∧ Ended s.receiver := by
  have hrun : exists s,
      run (stepAny (oneByte 0x02)) (oneByte 0x02).start overtakenTurns = some s ∧
        Stuck (oneByte 0x02) s :=
    ⟨_, rfl, trivial, trivial⟩
  rcases hrun with ⟨s, hrun, hstuck⟩
  exact ⟨s, hrun, never_stuck hrun hstuck⟩

end SignalCopy
end UnixPrograms
