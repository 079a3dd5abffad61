import UnixPrograms.SignalCopy.Schedule
import UnixPrograms.SignalCopy.Strangers

/-!
# Any number of senders

The receiver keeps the sender whose signal it takes first and answers every
other one by `SIG_FINISH`.  A sender's only call is its `SIG_CONTINUE`: as long
as none is sent while another is pending, every sender in its first wait has
an answer, or will get one.
-/

namespace UnixPrograms
namespace SignalCopy

open Foundation

structure Crowd where
  recPid : Pid
  senders : List Pid
  apart : recPid ∉ senders
  file : Pid -> List (UInt8 × UInt32)
  arr : Nat -> Nat

structure CrowdState where
  kernel : Kernel
  sender : Pid -> Prog Unit
  receiver : Prog Receiver

def Crowd.start (c : Crowd) : CrowdState where
  kernel := { pending := fun _ _ => none, written := [] }
  sender := fun p => senderMain p c.recPid (c.file p)
  receiver := receiverStart c.arr

inductive Actor where
  | sender (p : Pid)
  | receiver
deriving DecidableEq

structure CrowdTurn where
  actor : Actor
  signal : Signal

def Crowd.step (c : Crowd) (s : CrowdState) (turn : CrowdTurn) :
    Option CrowdState :=
  match turn.actor with
  | Actor.sender p =>
      if p ∈ c.senders then
        (Program.step (Kernel.exec (taking turn.signal) p) (s.sender p)
          s.kernel).map
          (fun after =>
            { s with
              sender := Function.update s.sender p after.1
              kernel := after.2 })
      else none
  | Actor.receiver =>
      (Program.step (Kernel.exec (taking turn.signal) c.recPid) s.receiver
        s.kernel).map
        (fun after =>
          { s with
            receiver := receiverLoop c.recPid after.1
            kernel := after.2 })

/-- A sender in its first wait that nobody has answered or will answer, while
the receiver has not ended. -/
structure Abandoned (c : Crowd) (s : CrowdState) (p : Pid) : Prop where
  waits : s.sender p = senderConnected p c.recPid (c.file p)
  unanswered : forall signal, s.kernel.pending p signal = none
  unheard : forall signal, s.kernel.pending c.recPid signal ≠ some p
  ignored : forall signal, s.receiver.nextOp ≠ some (Op.kill p signal)
  busy : ¬ Ended s.receiver

/-- A sender calls the receiver only while no call is pending. -/
def CallHeard (c : Crowd) (s : CrowdState) (turn : CrowdTurn) : Prop :=
  match turn.actor with
  | Actor.sender p =>
      match (s.sender p).nextOp with
      | some (Op.kill _ Signal.sigContinue) =>
          Ended s.receiver ∨
            s.kernel.pending c.recPid Signal.sigContinue = none
      | _ => True
  | Actor.receiver => True

instance {alpha : Type} (code : Prog alpha) : Decidable (Ended code) :=
  match h : code.nextOp with
  | none => isTrue h
  | some op => isFalse (fun hended => by rw [Ended, h] at hended; cases hended)

instance (c : Crowd) (s : CrowdState) (turn : CrowdTurn) :
    Decidable (CallHeard c s turn) := by
  unfold CallHeard
  split
  · split
    · infer_instance
    · infer_instance
  · infer_instance

/-!
## The points of the processes
-/

def Crowd.pair (c : Crowd) (p : Pid) (h : p ∈ c.senders) : Config where
  senPid := p
  recPid := c.recPid
  distinct := fun heq => c.apart (heq ▸ h)
  file := c.file p
  arr := c.arr

inductive HubPoint where
  | first
  | greet (p : Pid)
  | loop (r : Receiver)
  | wait (r : Receiver)
  | write (r : Receiver)
  | answer (p : Pid) (r : Receiver)
  | ended (r : Receiver)

def Crowd.receiver (c : Crowd) (p : Pid) : Receiver where
  senPid := p
  arr := c.arr
  arrLen := 0
  flag := true

def HubPoint.code (c : Crowd) : HubPoint -> Prog Receiver
  | HubPoint.first => receiverStart c.arr
  | HubPoint.greet p =>
      Program.call (Op.kill p Signal.sigContinue)
        (fun _ => Program.ret (c.receiver p))
  | HubPoint.loop r => receiverBody c.recPid r
  | HubPoint.wait r => receiverWait c.recPid r
  | HubPoint.write r => writeSymbol r
  | HubPoint.answer p r =>
      Program.call (Op.kill p Signal.sigFinish) (fun _ => Program.ret r)
  | HubPoint.ended r => Program.ret r

def HubPoint.main : HubPoint -> Option Pid
  | HubPoint.first => none
  | HubPoint.greet p => some p
  | HubPoint.loop r => some r.senPid
  | HubPoint.wait r => some r.senPid
  | HubPoint.write r => some r.senPid
  | HubPoint.answer _ r => some r.senPid
  | HubPoint.ended r => some r.senPid

def nextRound (r : Receiver) : HubPoint :=
  if r.flag = true then HubPoint.loop r else HubPoint.ended r

theorem nextRound_code (c : Crowd) (r : Receiver) :
    receiverLoop c.recPid (Program.ret r) = (nextRound r).code c := by
  rw [receiverLoop, Program.again, nextRound]
  split
  · rfl
  · rfl

theorem nextRound_main (r : Receiver) :
    (nextRound r).main = some r.senPid := by
  rw [nextRound]
  split
  · rfl
  · rfl

def Calls {alpha : Type} (recPid : Pid) (code : Prog alpha) : Prop :=
  code.nextOp = some (Op.kill recPid Signal.sigContinue)

theorem calls_point {cfg : Config} {sp : SenderPoint}
    (h : Calls cfg.recPid (sp.code cfg)) : sp = SenderPoint.start := by
  cases sp with
  | start => rfl
  | connected => cases h
  | bit value arr file =>
      injection h with h
      injection h with _ h
      split at h
      · cases h
      · cases h
  | wait arr file => cases h
  | finish => cases h
  | ended => cases h

theorem sendFile_finish (recPid : Pid) (file : List (UInt8 × UInt32)) :
    sendFile recPid file Signal.sigFinish =
      Program.ask (Op.kill recPid Signal.sigFinish) := by
  cases file with
  | nil => rfl
  | cons entry file => rfl

theorem connected_point {cfg : Config} {sp : SenderPoint}
    (h : sp.code cfg = senderConnected cfg.senPid cfg.recPid cfg.file) :
    sp = SenderPoint.connected := by
  cases sp with
  | start => cases h
  | connected => rfl
  | bit value arr file => cases h
  | wait arr file =>
      injection h with _ h
      have hfinish := congrFun h
        { signal := Signal.sigFinish, siPid := cfg.recPid }
      simp only [sendBitesAnswer, if_pos, Program.pure_eq_ret,
        Program.ret_bind, sendFile_finish] at hfinish
      cases hfinish
  | finish => cases h
  | ended => cases h

/-!
## What is known of every sender

A sender in its first wait has an answer pending, or its call is pending at a
receiver that has not chosen it, or the receiver is about to answer it.
-/

/-- A sender in its first wait has an answer, or its call is pending at a
receiver that has not chosen it, or the receiver is about to answer it. -/
def Cared (c : Crowd) (k : Kernel) (rp : HubPoint) (p : Pid) : Prop :=
  (exists signal q, k.pending p signal = some q) ∨
    (k.pending c.recPid Signal.sigContinue = some p ∧ rp.main ≠ some p) ∨
    (exists signal, (rp.code c).nextOp = some (Op.kill p signal)) ∨
    Ended (rp.code c)

def SenderCode (c : Crowd) (p : Pid) (hp : p ∈ c.senders) (code : Prog Unit) :
    Prop :=
  (exists sp : SenderPoint, code = sp.code (c.pair p hp)) ∨
    code = Program.halt { code := p }

structure Attended (c : Crowd) (s : CrowdState) (rp : HubPoint) : Prop where
  receiver : s.receiver = rp.code c
  senders : forall p (hp : p ∈ c.senders), SenderCode c p hp (s.sender p)
  answers : forall p, p ∈ c.senders -> forall signal q,
    s.kernel.pending p signal = some q ->
      q = c.recPid ∧
        (signal = Signal.sigContinue ∨ signal = Signal.sigFinish)
  calls : forall signal q, s.kernel.pending c.recPid signal = some q ->
    q ∈ c.senders ∧ signal ≠ Signal.sigStop ∧ ¬ Calls c.recPid (s.sender q)
  chosen : forall p, rp.main = some p ->
    p ∈ c.senders ∧ ¬ Calls c.recPid (s.sender p)
  target : forall p signal, (rp.code c).nextOp = some (Op.kill p signal) ->
    p ∈ c.senders
  quiet : rp = HubPoint.first ->
    (forall p, p ∈ c.senders ->
      (forall signal, s.kernel.pending p signal = none) ∧
        (Calls c.recPid (s.sender p) ∨
          s.sender p = senderConnected p c.recPid (c.file p))) ∧
    forall signal q, s.kernel.pending c.recPid signal = some q ->
      signal = Signal.sigContinue
  cared : forall p, p ∈ c.senders ->
    s.sender p = senderConnected p c.recPid (c.file p) ->
      Cared c s.kernel rp p

theorem attended_start (c : Crowd) : Attended c c.start HubPoint.first where
  receiver := rfl
  senders _ _ := Or.inl ⟨SenderPoint.start, rfl⟩
  answers _ _ _ _ hpending := by cases hpending
  calls _ _ hpending := by cases hpending
  chosen _ hmain := by cases hmain
  target _ _ hop := by cases hop
  quiet _ := ⟨fun _ _ => ⟨fun _ => rfl, Or.inl rfl⟩,
    fun _ _ hpending => by cases hpending⟩
  cared _ _ hcode := by cases hcode

theorem Attended.not_abandoned {c : Crowd} {s : CrowdState} {rp : HubPoint}
    (h : Attended c s rp) {p : Pid} (hp : p ∈ c.senders) :
    ¬ Abandoned c s p := by
  intro habandoned
  rcases h.cared p hp habandoned.waits with
    ⟨signal, q, hpending⟩ | ⟨hpending, _⟩ | ⟨signal, hop⟩ | hended
  · rw [habandoned.unanswered] at hpending
    cases hpending
  · exact habandoned.unheard _ hpending
  · rw [← h.receiver] at hop
    exact habandoned.ignored signal hop
  · rw [← h.receiver] at hended
    exact habandoned.busy hended

/-!
## Steps of a sender
-/

theorem Attended.sender_goes {c : Crowd} {s : CrowdState} {rp : HubPoint}
    (h : Attended c s rp) {p : Pid} (hp : p ∈ c.senders) {code : Prog Unit}
    {k : Kernel} (hcode : SenderCode c p hp code)
    (hcalls : ¬ Calls c.recPid code)
    (hothers : forall p', p' ∈ c.senders -> p' ≠ p -> forall signal,
      k.pending p' signal = s.kernel.pending p' signal)
    (hown : forall signal q, k.pending p signal = some q ->
      s.kernel.pending p signal = some q)
    (hrec : forall signal q, k.pending c.recPid signal = some q ->
      s.kernel.pending c.recPid signal = some q ∨
        q = p ∧ signal ≠ Signal.sigStop)
    (hkeep : forall q,
      s.kernel.pending c.recPid Signal.sigContinue = some q ->
        k.pending c.recPid Signal.sigContinue = some q)
    (hquiet : rp = HubPoint.first ->
      code = senderConnected p c.recPid (c.file p) ∧
        forall signal q, k.pending c.recPid signal = some q ->
          signal = Signal.sigContinue)
    (hcared : code = senderConnected p c.recPid (c.file p) ->
      Cared c k rp p) :
    Attended c
      { s with
        sender := Function.update s.sender p code
        kernel := k } rp := by
  have hnow : forall p', p' = p ->
      Function.update s.sender p code p' = code := by
    intro p' hsame
    rw [hsame, Function.update_self]
  have hother : forall p', p' ≠ p ->
      Function.update s.sender p code p' = s.sender p' :=
    fun p' hne => Function.update_of_ne hne code s.sender
  have hsilent : forall p', ¬ Calls c.recPid (s.sender p') ∨ p' = p ->
      ¬ Calls c.recPid (Function.update s.sender p code p') := by
    intro p' hbefore
    by_cases hsame : p' = p
    · rw [hnow p' hsame]
      exact hcalls
    · rw [hother p' hsame]
      exact hbefore.resolve_right hsame
  constructor
  case receiver => exact h.receiver
  case senders =>
    intro p' hp'
    by_cases hsame : p' = p
    · subst hsame
      change SenderCode c p' hp' (Function.update s.sender p' code p')
      rw [Function.update_self]
      exact hcode
    · change SenderCode c p' hp' (Function.update s.sender p code p')
      rw [hother p' hsame]
      exact h.senders p' hp'
  case answers =>
    intro p' hp' signal q hpending
    by_cases hsame : p' = p
    · rw [hsame] at hpending hp'
      exact h.answers p hp' signal q (hown signal q hpending)
    · change k.pending p' signal = some q at hpending
      rw [hothers p' hp' hsame] at hpending
      exact h.answers p' hp' signal q hpending
  case calls =>
    intro signal q hpending
    rcases hrec signal q hpending with hbefore | ⟨hq, hgo⟩
    · rcases h.calls signal q hbefore with ⟨hq, hgo, hsaid⟩
      exact ⟨hq, hgo, hsilent q (Or.inl hsaid)⟩
    · refine ⟨?_, hgo, hsilent q (Or.inr hq)⟩
      rw [hq]
      exact hp
  case chosen =>
    intro p' hmain
    rcases h.chosen p' hmain with ⟨hp', hsaid⟩
    exact ⟨hp', hsilent p' (Or.inl hsaid)⟩
  case target => exact h.target
  case quiet =>
    intro hfirst
    rcases hquiet hfirst with ⟨hconnected, honly⟩
    refine ⟨fun p' hp' => ?_, honly⟩
    rcases (h.quiet hfirst).left p' hp' with ⟨hnone, hbefore⟩
    by_cases hsame : p' = p
    · subst hsame
      refine ⟨fun signal => ?_, Or.inr ?_⟩
      · cases hpending : k.pending p' signal with
        | none => rfl
        | some q =>
            have hcontra := hown signal q hpending
            rw [hnone] at hcontra
            cases hcontra
      · change Function.update s.sender p' code p' = _
        rw [Function.update_self]
        exact hconnected
    · refine ⟨fun signal => ?_, ?_⟩
      · exact (hothers p' hp' hsame signal).trans (hnone signal)
      · change Calls c.recPid (Function.update s.sender p code p') ∨
          Function.update s.sender p code p' = _
        rw [hother p' hsame]
        exact hbefore
  case cared =>
    intro p' hp' hwaits
    change Function.update s.sender p code p' = _ at hwaits
    by_cases hsame : p' = p
    · subst hsame
      rw [Function.update_self] at hwaits
      exact hcared hwaits
    · rw [hother p' hsame] at hwaits
      rcases h.cared p' hp' hwaits with ⟨signal, q, hpending⟩ | hrest
      · exact Or.inl ⟨signal, q, (hothers p' hp' hsame signal).trans hpending⟩
      · rcases hrest with ⟨hpending, hmain⟩ | hrest
        · exact Or.inr (Or.inl ⟨hkeep p' hpending, hmain⟩)
        · exact Or.inr (Or.inr hrest)

theorem crowd_sender {c : Crowd} {s s' : CrowdState} {p : Pid}
    {signal : Signal} {op : Op} {next : op.Res -> Prog Unit}
    (hcode : s.sender p = Program.call op next)
    (hstep : c.step s { actor := Actor.sender p, signal := signal } = some s') :
    exists answer k, s.kernel.exec (taking signal) p op = some (answer, k) ∧
      s' =
        { s with
          sender := Function.update s.sender p (next answer)
          kernel := k } := by
  by_cases hp : p ∈ c.senders
  · simp only [Crowd.step, if_pos hp] at hstep
    rcases Option.map_eq_some_iff.mp hstep with ⟨⟨code, k⟩, hexec, heq⟩
    rw [hcode] at hexec
    rcases Program.step_call_eq_some hexec with ⟨answer, hanswer, hnext⟩
    exact ⟨answer, k, hanswer, by rw [← heq, hnext]⟩
  · simp only [Crowd.step, if_neg hp] at hstep
    cases hstep

theorem Attended.sender_takes {c : Crowd} {s : CrowdState} {rp : HubPoint}
    (h : Attended c s rp) {p : Pid} (hp : p ∈ c.senders) {signal : Signal}
    {q : Pid} (hpending : s.kernel.pending p signal = some q)
    {code : Prog Unit} (hcode : SenderCode c p hp code)
    (hgoes : forall set, code.nextOp ≠ some (Op.sigwaitinfo set))
    (hcalls : ¬ Calls c.recPid code) :
    Attended c
      { s with
        sender := Function.update s.sender p code
        kernel := s.kernel.take p signal } rp := by
  have hrecPid : c.recPid ≠ p := fun heq => c.apart (heq ▸ hp)
  have hrec : forall sig, (s.kernel.take p signal).pending c.recPid sig =
      s.kernel.pending c.recPid sig := by
    intro sig
    exact pending_take_other s.kernel signal sig hrecPid
  apply h.sender_goes hp hcode hcalls
  case hothers =>
    intro p' _ hne sig
    exact pending_take_other s.kernel signal sig hne
  case hown => exact fun _ _ => take_pending
  case hrec =>
    intro sig q' hpending'
    rw [hrec] at hpending'
    exact Or.inl hpending'
  case hkeep =>
    intro q' hpending'
    rw [hrec]
    exact hpending'
  case hquiet =>
    intro hfirst
    have hnone := ((h.quiet hfirst).left p hp).left signal
    rw [hpending] at hnone
    cases hnone
  case hcared =>
    intro hwaits
    rw [hwaits] at hgoes
    exact absurd rfl (hgoes senderSigset)

theorem pending_to_receiver {c : Crowd} {k : Kernel} {p : Pid}
    {signal : Signal} :
    (forall p', p' ≠ c.recPid -> forall sig,
      (k.kill p c.recPid signal).pending p' sig = k.pending p' sig) ∧
    (forall sig q, (k.kill p c.recPid signal).pending c.recPid sig = some q ->
      k.pending c.recPid sig = some q ∨ q = p ∧ sig = signal) ∧
    forall sig q, k.pending c.recPid sig = some q ->
      (k.kill p c.recPid signal).pending c.recPid sig = some q := by
  refine ⟨?_, ?_, ?_⟩
  · intro p' hne sig
    exact pending_kill_other k signal sig hne
  · intro sig q hpending
    exact (pending_of_kill hpending).imp_right And.symm
  · exact fun _ _ => pending_kill_of_pending

theorem Attended.sender_sends {c : Crowd} {s : CrowdState} {rp : HubPoint}
    (h : Attended c s rp) {p : Pid} (hp : p ∈ c.senders) {signal : Signal}
    (hstop : signal ≠ Signal.sigStop)
    (hbefore : ¬ Calls c.recPid (s.sender p))
    (hpast : s.sender p ≠ senderConnected p c.recPid (c.file p))
    {code : Prog Unit} (hcode : SenderCode c p hp code)
    (hcalls : ¬ Calls c.recPid code)
    (hwaits : code ≠ senderConnected p c.recPid (c.file p)) :
    Attended c
      { s with
        sender := Function.update s.sender p code
        kernel := s.kernel.kill p c.recPid signal } rp := by
  have hne : forall p', p' ∈ c.senders -> p' ≠ c.recPid :=
    fun p' hp' heq => c.apart (heq ▸ hp')
  rcases @pending_to_receiver c s.kernel p signal with ⟨hothers, hnew, hkeep⟩
  apply h.sender_goes hp hcode hcalls
  case hothers => exact fun p' hp' _ sig => hothers p' (hne p' hp') sig
  case hown =>
    intro sig q hpending
    rw [hothers p (hne p hp)] at hpending
    exact hpending
  case hrec =>
    intro sig q hpending
    rcases hnew sig q hpending with hsame | ⟨hq, hsig⟩
    · exact Or.inl hsame
    · exact Or.inr ⟨hq, by rw [hsig]; exact hstop⟩
  case hkeep => exact fun q hpending => hkeep _ q hpending
  case hquiet =>
    intro hfirst
    rcases ((h.quiet hfirst).left p hp).right with hcontra | hcontra
    · exact absurd hcontra hbefore
    · exact absurd hcontra hpast
  case hcared => exact fun hcontra => absurd hcontra hwaits

theorem Attended.sender_calls {c : Crowd} {s : CrowdState} {rp : HubPoint}
    (h : Attended c s rp) {p : Pid} (hp : p ∈ c.senders)
    (hbefore : Calls c.recPid (s.sender p))
    (hheard : Ended s.receiver ∨
      s.kernel.pending c.recPid Signal.sigContinue = none) :
    Attended c
      { s with
        sender := Function.update s.sender p
          (senderConnected p c.recPid (c.file p))
        kernel := s.kernel.kill p c.recPid Signal.sigContinue } rp := by
  have hne : forall p', p' ∈ c.senders -> p' ≠ c.recPid :=
    fun p' hp' heq => c.apart (heq ▸ hp')
  rcases @pending_to_receiver c s.kernel p Signal.sigContinue with
    ⟨hothers, hnew, hkeep⟩
  apply h.sender_goes hp (Or.inl ⟨SenderPoint.connected, rfl⟩)
    (fun hcontra => by cases hcontra)
  case hothers => exact fun p' hp' _ sig => hothers p' (hne p' hp') sig
  case hown =>
    intro sig q hpending
    rw [hothers p (hne p hp)] at hpending
    exact hpending
  case hrec =>
    intro sig q hpending
    rcases hnew sig q hpending with hsame | ⟨hq, hsig⟩
    · exact Or.inl hsame
    · exact Or.inr ⟨hq, by rw [hsig]; decide⟩
  case hkeep => exact fun q hpending => hkeep _ q hpending
  case hquiet =>
    intro hfirst
    refine ⟨rfl, fun sig q hpending => ?_⟩
    rcases hnew sig q hpending with hsame | ⟨_, hsig⟩
    · exact (h.quiet hfirst).right sig q hsame
    · exact hsig
  case hcared =>
    intro _
    rcases hheard with hended | hnone
    · rw [h.receiver] at hended
      exact Or.inr (Or.inr (Or.inr hended))
    · refine Or.inr (Or.inl ⟨?_, fun hmain => (h.chosen p hmain).right hbefore⟩)
      rw [pending_kill, if_pos ⟨rfl, rfl⟩, hnone]
      rfl

theorem nextPoint_busy (cfg : Config) (arr : List Nat)
    (file : List (UInt8 × UInt32)) :
    (forall set,
      ((nextPoint arr file).code cfg).nextOp ≠ some (Op.sigwaitinfo set)) ∧
    ¬ Calls cfg.recPid ((nextPoint arr file).code cfg) := by
  have hnot := nextPoint_begun arr file
  refine ⟨fun set => ?_, fun hcalls => hnot (calls_point hcalls)⟩
  cases arr with
  | cons value arr => exact fun h => by cases h
  | nil =>
      cases file with
      | nil => exact fun h => by cases h
      | cons entry file => exact fun h => by cases h

theorem finish_busy (cfg : Config) :
    (forall set, (SenderPoint.finish.code cfg).nextOp ≠
      some (Op.sigwaitinfo set)) ∧
    ¬ Calls cfg.recPid (SenderPoint.finish.code cfg) :=
  ⟨fun _ h => (by cases h), fun h => (by cases h)⟩

theorem Attended.sender_answered {c : Crowd} {s s' : CrowdState} {rp : HubPoint}
    (h : Attended c s rp) {p : Pid} (hp : p ∈ c.senders) {signal : Signal}
    {next : SigInfo -> Prog Unit}
    (hcode : s.sender p = Program.call (Op.sigwaitinfo senderSigset) next)
    {code : Prog Unit} (arr : List Nat) (file : List (UInt8 × UInt32))
    (hcontinue :
      next { signal := Signal.sigContinue, siPid := c.recPid } =
        (nextPoint arr file).code (c.pair p hp))
    (hfinish :
      next { signal := Signal.sigFinish, siPid := c.recPid } = code)
    (hgives : SenderCode c p hp code ∧
      (forall set, code.nextOp ≠ some (Op.sigwaitinfo set)) ∧
      ¬ Calls c.recPid code)
    (hstep : c.step s { actor := Actor.sender p, signal := signal } = some s') :
    Attended c s' rp := by
  rcases crowd_sender hcode hstep with ⟨info, k, hexec, heq⟩
  rcases exec_taking hexec with ⟨hinfo, _, hpending, hk⟩
  rcases h.answers p hp signal info.siPid hpending with ⟨hpid, hsignal⟩
  rw [heq, hk]
  rcases hsignal with hsignal | hsignal
  · have hnext : next info = (nextPoint arr file).code (c.pair p hp) := by
      rw [← hcontinue, ← hsignal, ← hinfo, ← hpid]
    rcases nextPoint_busy (c.pair p hp) arr file with ⟨hgoes, hcalls⟩
    rw [hnext]
    exact h.sender_takes hp hpending (Or.inl ⟨_, rfl⟩) hgoes hcalls
  · have hnext : next info = code := by
      rw [← hfinish, ← hsignal, ← hinfo, ← hpid]
    rw [hnext]
    exact h.sender_takes hp hpending hgives.left hgives.right.left
      hgives.right.right

theorem Attended.sender_step {c : Crowd} {s s' : CrowdState} {rp : HubPoint}
    (h : Attended c s rp) {p : Pid} {signal : Signal}
    (hguard : CallHeard c s { actor := Actor.sender p, signal := signal })
    (hstep : c.step s { actor := Actor.sender p, signal := signal } = some s') :
    Attended c s' rp := by
  have hp : p ∈ c.senders := by
    by_contra hno
    simp only [Crowd.step, if_neg hno] at hstep
    cases hstep
  rcases h.senders p hp with ⟨sp, hcode⟩ | hcode
  · cases sp with
    | start =>
        rcases crowd_sender hcode hstep with ⟨answer, k, hexec, heq⟩
        injection hexec with hexec
        injection hexec with _ hk
        have hheard : Ended s.receiver ∨
            s.kernel.pending c.recPid Signal.sigContinue = none := by
          simp only [CallHeard] at hguard
          rw [hcode] at hguard
          exact hguard
        rw [heq, ← hk]
        exact h.sender_calls hp (by rw [hcode]; rfl) hheard
    | connected =>
        exact h.sender_answered hp hcode [] (c.file p)
          (nextPoint_code (c.pair p hp) [] (c.file p)) rfl
          ⟨Or.inr rfl, fun _ hcontra => (by cases hcontra),
            fun hcontra => (by cases hcontra)⟩ hstep
    | wait arr file =>
        have hcontinue := nextPoint_code (c.pair p hp) arr file
        have hfinish : (sendBitesAnswer c.recPid arr
            { signal := Signal.sigFinish, siPid := c.recPid } >>=
              sendFile c.recPid file) =
            SenderPoint.finish.code (c.pair p hp) := by
          simp only [sendBitesAnswer, if_pos, Program.pure_eq_ret,
            Program.ret_bind, sendFile_finish]
          rfl
        refine h.sender_answered hp hcode arr file ?_ hfinish
          ⟨Or.inl ⟨SenderPoint.finish, rfl⟩, finish_busy _⟩ hstep
        rw [← hcontinue, ← sendBitesAnswer_continue]
        rfl
    | bit value arr file =>
        rcases crowd_sender hcode hstep with ⟨answer, k, hexec, heq⟩
        injection hexec with hexec
        injection hexec with _ hk
        have hpast : ¬ Calls c.recPid (s.sender p) ∧
            s.sender p ≠ senderConnected p c.recPid (c.file p) := by
          rw [hcode]
          refine ⟨fun hcalls => ?_, fun hcontra => by cases hcontra⟩
          cases calls_point hcalls
        rw [heq, ← hk]
        refine h.sender_sends hp ?_ hpast.left hpast.right
          (Or.inl ⟨SenderPoint.wait arr file, rfl⟩)
          (fun hcontra => by cases hcontra) ?_
        · split
          · decide
          · decide
        · intro hcontra
          cases @connected_point (c.pair p hp) (SenderPoint.wait arr file)
            hcontra
    | finish =>
        rcases crowd_sender hcode hstep with ⟨answer, k, hexec, heq⟩
        injection hexec with hexec
        injection hexec with _ hk
        have hpast : ¬ Calls c.recPid (s.sender p) ∧
            s.sender p ≠ senderConnected p c.recPid (c.file p) := by
          rw [hcode]
          exact ⟨fun hcalls => (by cases hcalls),
            fun hcontra => (by cases hcontra)⟩
        rw [heq, ← hk]
        exact h.sender_sends hp (by decide) hpast.left hpast.right
          (Or.inl ⟨SenderPoint.ended, rfl⟩) (fun hcontra => by cases hcontra)
          (fun hcontra => by cases hcontra)
    | ended =>
        simp only [Crowd.step, if_pos hp, hcode] at hstep
        cases hstep
  · simp only [Crowd.step, if_pos hp, hcode] at hstep
    cases hstep

/-!
## Steps of the receiver
-/

theorem crowd_receiver {c : Crowd} {s s' : CrowdState} {signal : Signal}
    {op : Op} {next : op.Res -> Prog Receiver}
    (hcode : s.receiver = Program.call op next)
    (hstep : c.step s { actor := Actor.receiver, signal := signal } = some s') :
    exists answer k,
      s.kernel.exec (taking signal) c.recPid op = some (answer, k) ∧
      s' =
        { s with
          receiver := receiverLoop c.recPid (next answer)
          kernel := k } := by
  rcases Option.map_eq_some_iff.mp hstep with ⟨⟨code, k⟩, hexec, heq⟩
  rw [hcode] at hexec
  rcases Program.step_call_eq_some hexec with ⟨answer, hanswer, hnext⟩
  exact ⟨answer, k, hanswer, by rw [← heq, hnext]⟩

theorem Attended.receiver_goes {c : Crowd} {s : CrowdState} {rp : HubPoint}
    (h : Attended c s rp) {rp' : HubPoint} {code : Prog Receiver} {k : Kernel}
    (hcode : code = rp'.code c) (hbegun : rp' ≠ HubPoint.first)
    (hsent : forall p, p ∈ c.senders -> forall signal q,
      k.pending p signal = some q ->
        s.kernel.pending p signal = some q ∨ q = c.recPid ∧
          (signal = Signal.sigContinue ∨ signal = Signal.sigFinish))
    (hrec : forall signal q, k.pending c.recPid signal = some q ->
      s.kernel.pending c.recPid signal = some q)
    (hchosen : forall p, rp'.main = some p ->
      p ∈ c.senders ∧ ¬ Calls c.recPid (s.sender p))
    (htarget : forall p signal,
      (rp'.code c).nextOp = some (Op.kill p signal) -> p ∈ c.senders)
    (hcared : forall p, p ∈ c.senders ->
      Cared c s.kernel rp p -> Cared c k rp' p) :
    Attended c
      { s with
        receiver := code
        kernel := k } rp' where
  receiver := hcode
  senders := h.senders
  answers p hp signal q hpending := by
    rcases hsent p hp signal q hpending with hbefore | hnew
    · exact h.answers p hp signal q hbefore
    · exact hnew
  calls signal q hpending := h.calls signal q (hrec signal q hpending)
  chosen := hchosen
  target := htarget
  quiet hfirst := absurd hfirst hbegun
  cared p hp hwaits := hcared p hp (h.cared p hp hwaits)

theorem Attended.receiver_kills {c : Crowd} {s s' : CrowdState} {rp : HubPoint}
    (h : Attended c s rp) {q : Pid} {sig signal : Signal}
    {next : Unit -> Prog Receiver}
    (hcode : rp.code c = Program.call (Op.kill q sig) next)
    (hsig : sig = Signal.sigContinue ∨ sig = Signal.sigFinish)
    {rp' : HubPoint}
    (hnext : receiverLoop c.recPid (next ()) = rp'.code c)
    (hmain : rp'.main = rp.main) (hbegun : rp.main ≠ none)
    (htarget : forall p signal,
      (rp'.code c).nextOp = some (Op.kill p signal) -> rp'.main = some p)
    (hstep : c.step s { actor := Actor.receiver, signal := signal } = some s') :
    Attended c s' rp' := by
  rcases crowd_receiver (h.receiver.trans hcode) hstep with
    ⟨answer, k, hexec, heq⟩
  injection hexec with hexec
  injection hexec with _ hk
  have hq : q ∈ c.senders := h.target q sig (by rw [hcode]; rfl)
  have hne : c.recPid ≠ q := fun hcontra => c.apart (hcontra ▸ hq)
  have hrec : forall sig', (s.kernel.kill c.recPid q sig).pending c.recPid sig' =
      s.kernel.pending c.recPid sig' := by
    intro sig'
    exact pending_kill_other s.kernel sig sig' hne
  have hchosen : forall p, rp'.main = some p ->
      p ∈ c.senders ∧ ¬ Calls c.recPid (s.sender p) := by
    intro p hp
    rw [hmain] at hp
    exact h.chosen p hp
  rw [heq, ← hk]
  apply h.receiver_goes hnext
  case hbegun =>
    intro hcontra
    rw [hcontra] at hmain
    exact hbegun hmain.symm
  case hsent =>
    intro p hp sig' q' hpending
    rcases pending_of_kill hpending with hbefore | ⟨hsame, hq'⟩
    · exact Or.inl hbefore
    · exact Or.inr ⟨hq', by rw [hsame]; exact hsig⟩
  case hrec =>
    intro sig' q' hpending
    rw [hrec] at hpending
    exact hpending
  case hchosen => exact hchosen
  case htarget =>
    intro p sig' hop
    exact (hchosen p (htarget p sig' hop)).left
  case hcared =>
    intro p hp hcared
    rcases hcared with ⟨sig', q', hpending⟩ | ⟨hpending, hother⟩ | hrest
    · exact Or.inl ⟨sig', q', pending_kill_of_pending hpending⟩
    · refine Or.inr (Or.inl ⟨?_, by rw [hmain]; exact hother⟩)
      rw [hrec]
      exact hpending
    · rcases hrest with ⟨sig', hop⟩ | hended
      · rw [hcode] at hop
        injection hop with hop
        injection hop with hp' _
        exact Or.inl ⟨sig, _, by rw [pending_kill, if_pos ⟨hp'.symm, rfl⟩]⟩
      · rw [hcode] at hended
        cases hended

theorem Attended.receiver_takes {c : Crowd} {s : CrowdState} {rp rp' : HubPoint}
    (h : Attended c s rp) {q : Pid} {signal : Signal}
    (hpending : s.kernel.pending c.recPid signal = some q)
    {set : List Signal}
    (hop : (rp.code c).nextOp = some (Op.sigwaitinfo set))
    (hbegun : rp' ≠ HubPoint.first)
    (hmain : forall p, rp'.main = some p ->
      rp.main = some p ∨ p = q ∧ signal = Signal.sigContinue)
    (hanswer : (exists sig, (rp'.code c).nextOp = some (Op.kill q sig)) ∨
      rp.main = some q)
    (htarget : forall p sig, (rp'.code c).nextOp = some (Op.kill p sig) ->
      p = q ∨ rp.main = some p) :
    Attended c
      { s with
        receiver := rp'.code c
        kernel := s.kernel.take c.recPid signal } rp' := by
  have hq := h.calls signal q hpending
  apply h.receiver_goes rfl hbegun
  case hsent => exact fun _ _ _ _ hpending' => Or.inl (take_pending hpending')
  case hrec => exact fun _ _ hpending' => take_pending hpending'
  case hchosen =>
    intro p hp
    rcases hmain p hp with hbefore | ⟨hsame, _⟩
    · exact h.chosen p hbefore
    · rw [hsame]
      exact ⟨hq.left, hq.right.right⟩
  case htarget =>
    intro p sig hkill
    rcases htarget p sig hkill with hsame | hbefore
    · rw [hsame]
      exact hq.left
    · exact (h.chosen p hbefore).left
  case hcared =>
    intro p hp hcared
    have hne : p ≠ c.recPid := fun heq => c.apart (heq ▸ hp)
    rcases hcared with ⟨sig', q', hpending'⟩ | ⟨hcall, hother⟩ | hrest
    · refine Or.inl ⟨sig', q', ?_⟩
      rw [pending_take_other s.kernel signal sig' hne]
      exact hpending'
    · by_cases hsame : p = q
      · rw [← hsame] at hanswer
        rcases hanswer with hnext | hcontra
        · exact Or.inr (Or.inr (Or.inl hnext))
        · exact absurd hcontra hother
      · have hsignal : Signal.sigContinue ≠ signal := by
          intro hcontra
          rw [← hcontra, hcall] at hpending
          injection hpending with hcontra'
          exact hsame hcontra'
        refine Or.inr (Or.inl ⟨?_, fun hcontra => ?_⟩)
        · rw [pending_take, if_neg (fun hboth => hsignal hboth.right)]
          exact hcall
        · rcases hmain p hcontra with hbefore | ⟨hcontra', _⟩
          · exact hother hbefore
          · exact hsame hcontra'
    · rcases hrest with ⟨sig', hkill⟩ | hended
      · rw [hop] at hkill
        cases hkill
      · rw [Ended, hop] at hended
        cases hended

theorem nextRound_target {c : Crowd} {r : Receiver} {p : Pid} {signal : Signal}
    (h : ((nextRound r).code c).nextOp = some (Op.kill p signal)) :
    p = r.senPid := by
  rw [nextRound] at h
  split at h
  · injection h with h
    injection h with h _
    exact h.symm
  · cases h

theorem nextRound_begun (r : Receiver) : nextRound r ≠ HubPoint.first := by
  intro h
  have hmain := nextRound_main r
  rw [h] at hmain
  cases hmain

theorem switch_senPid (r : Receiver) (signal : Signal) :
    (r.switch signal).senPid = r.senPid := by
  cases signal <;> rfl

def afterBit (r : Receiver) : HubPoint :=
  if r.arrLen = 8 then HubPoint.write r else nextRound r

theorem afterBit_code (c : Crowd) (r : Receiver) :
    receiverLoop c.recPid
        (if r.arrLen = 8 then writeSymbol r else Program.ret r) =
      (afterBit r).code c := by
  rw [afterBit]
  split
  · rfl
  · exact nextRound_code c r

theorem afterBit_main (r : Receiver) : (afterBit r).main = some r.senPid := by
  rw [afterBit]
  split
  · rfl
  · exact nextRound_main r

theorem afterBit_target {c : Crowd} {r : Receiver} {p : Pid} {signal : Signal}
    (h : ((afterBit r).code c).nextOp = some (Op.kill p signal)) :
    p = r.senPid := by
  rw [afterBit] at h
  split at h
  · cases h
  · exact nextRound_target h

theorem Attended.receiver_wait {c : Crowd} {s s' : CrowdState} {r : Receiver}
    (h : Attended c s (HubPoint.wait r)) {signal : Signal}
    (hstep : c.step s { actor := Actor.receiver, signal := signal } = some s') :
    exists rp, Attended c s' rp := by
  rcases crowd_receiver h.receiver hstep with ⟨info, k, hexec, heq⟩
  rcases exec_taking hexec with ⟨hinfo, _, hpending, hk⟩
  rcases h.calls signal info.siPid hpending with ⟨hmem, hstop, _⟩
  by_cases hmain : r.senPid = info.siPid
  · have hcode : s'.receiver = (afterBit (r.switch signal)).code c := by
      rw [heq, ← afterBit_code]
      change receiverLoop c.recPid (if r.senPid = info.siPid then _ else _) = _
      rw [if_pos hmain, hinfo]
      rfl
    have hsame := switch_senPid r signal
    rw [heq] at hcode
    rw [heq, hk]
    change receiverLoop c.recPid _ = _ at hcode
    rw [hcode]
    refine ⟨afterBit (r.switch signal),
      h.receiver_takes hpending rfl ?_ ?_ (Or.inr ?_) ?_⟩
    · intro hcontra
      have hafter := afterBit_main (r.switch signal)
      rw [hcontra] at hafter
      cases hafter
    · intro p hp
      rw [afterBit_main, hsame] at hp
      exact Or.inl hp
    · rw [← hmain]
      rfl
    · intro p sig hop
      right
      rw [afterBit_target hop, hsame]
      rfl
  · have hown : info.siPid ≠ c.recPid := fun hcontra => c.apart (hcontra ▸ hmem)
    have hcode : receiverLoop c.recPid
        (receiverAnswer c.recPid r info) =
          (HubPoint.answer info.siPid r).code c := by
      have hgo : info.signal ≠ Signal.sigStop := by
        rw [hinfo]
        exact hstop
      rw [receiverAnswer, if_neg hmain, if_neg hgo, if_pos hown]
      rfl
    rw [heq, hk]
    change exists rp, Attended c
      { s with
        receiver := receiverLoop c.recPid (receiverAnswer c.recPid r info)
        kernel := s.kernel.take c.recPid signal } rp
    rw [hcode]
    refine ⟨HubPoint.answer info.siPid r,
      h.receiver_takes hpending rfl HubPoint.noConfusion
        (fun p hp => Or.inl hp) (Or.inl ⟨Signal.sigFinish, rfl⟩) ?_⟩
    intro p sig hop
    injection hop with hop
    injection hop with hop _
    exact Or.inl hop.symm

theorem Attended.receiver_step {c : Crowd} {s s' : CrowdState} {rp : HubPoint}
    (h : Attended c s rp) {signal : Signal}
    (hstep : c.step s { actor := Actor.receiver, signal := signal } = some s') :
    exists rp', Attended c s' rp' := by
  cases rp with
  | first =>
      rcases crowd_receiver h.receiver hstep with ⟨info, k, hexec, heq⟩
      rcases exec_taking hexec with ⟨hinfo, _, hpending, hk⟩
      have hcall := (h.quiet rfl).right signal info.siPid hpending
      rw [heq, hk]
      refine ⟨HubPoint.greet info.siPid, ?_⟩
      change Attended c
        { s with
          receiver := (HubPoint.greet info.siPid).code c
          kernel := s.kernel.take c.recPid signal } _
      refine h.receiver_takes hpending rfl HubPoint.noConfusion ?_
        (Or.inl ⟨Signal.sigContinue, rfl⟩) ?_
      · intro p hp
        injection hp with hp
        exact Or.inr ⟨hp.symm, hcall⟩
      · intro p sig hop
        injection hop with hop
        injection hop with hop _
        exact Or.inl hop.symm
  | greet p =>
      refine ⟨nextRound (c.receiver p),
        h.receiver_kills rfl (Or.inl rfl) (nextRound_code c _)
          (nextRound_main _) (fun hcontra => by cases hcontra) ?_ hstep⟩
      intro p' sig hop
      rw [nextRound_main, nextRound_target hop]
  | loop r =>
      exact ⟨HubPoint.wait r,
        h.receiver_kills rfl (Or.inl rfl) rfl rfl
          (fun hcontra => by cases hcontra)
          (fun _ _ hop => by cases hop) hstep⟩
  | wait r => exact h.receiver_wait hstep
  | write r =>
      rcases crowd_receiver h.receiver hstep with ⟨answer, k, hexec, heq⟩
      injection hexec with hexec
      injection hexec with _ hk
      rw [heq, ← hk]
      refine ⟨nextRound { r with arrLen := 0 },
        h.receiver_goes (nextRound_code c _) (nextRound_begun _)
          (fun _ _ _ _ hpending => Or.inl hpending)
          (fun _ _ hpending => hpending) ?_ ?_ ?_⟩
      · intro p hp
        rw [nextRound_main] at hp
        exact h.chosen p hp
      · intro p sig hop
        rw [nextRound_target hop]
        exact (h.chosen r.senPid rfl).left
      · intro p hp hcared
        rcases hcared with hpending | ⟨hcall, hother⟩ | ⟨sig, hop⟩ | hended
        · exact Or.inl hpending
        · exact Or.inr (Or.inl ⟨hcall, by rw [nextRound_main]; exact hother⟩)
        · cases hop
        · cases hended
  | answer p r =>
      refine ⟨nextRound r,
        h.receiver_kills rfl (Or.inr rfl) (nextRound_code c _)
          (nextRound_main _) (fun hcontra => by cases hcontra) ?_ hstep⟩
      intro p' sig hop
      rw [nextRound_main, nextRound_target hop]
  | ended r =>
      simp only [Crowd.step, h.receiver] at hstep
      cases hstep

/-!
## Every run
-/

/-- No sender is abandoned in a run in which every call is sent while no other
one is pending. -/
theorem surplus_answered {c : Crowd} {turns : List CrowdTurn} {s : CrowdState}
    (hheard : AllSteps c.step (CallHeard c) c.start turns)
    (hrun : run c.step c.start turns = some s) {p : Pid}
    (hp : p ∈ c.senders) : ¬ Abandoned c s p := by
  have hinv : exists rp, Attended c s rp := by
    apply run_invariant (fun s => exists rp, Attended c s rp) _
      ⟨HubPoint.first, attended_start c⟩ hheard hrun
    rintro s turn s' ⟨rp, h⟩ hguard hstep
    cases turn with
    | mk actor signal =>
        cases actor with
        | sender p => exact ⟨rp, h.sender_step hguard hstep⟩
        | receiver => exact h.receiver_step hstep
  rcases hinv with ⟨rp, h⟩
  exact h.not_abandoned hp

def twoSenders : Crowd where
  recPid := 2
  senders := [1, 3]
  apart := by decide
  file := fun _ => [(0x05, 0)]
  arr := fun _ => 0

def turnOf (actor : Actor) : CrowdTurn where
  actor := actor
  signal := Signal.sigContinue

def oneAfterAnother : List CrowdTurn :=
  [turnOf (Actor.sender 1), turnOf Actor.receiver, turnOf Actor.receiver,
    turnOf (Actor.sender 3), turnOf Actor.receiver, turnOf Actor.receiver,
    turnOf Actor.receiver]

theorem surplus_answered_after :
    exists s, run twoSenders.step twoSenders.start oneAfterAnother = some s ∧
      s.kernel.pending 3 Signal.sigFinish = some 2 ∧
      ¬ Abandoned twoSenders s 3 := by
  have hrun : exists s,
      run twoSenders.step twoSenders.start oneAfterAnother = some s ∧
        s.kernel.pending 3 Signal.sigFinish = some 2 :=
    ⟨_, rfl, rfl⟩
  rcases hrun with ⟨s, hrun, hanswer⟩
  have hheard : AllSteps twoSenders.step (CallHeard twoSenders)
      twoSenders.start oneAfterAnother := by
    decide +kernel
  exact ⟨s, hrun, hanswer, surplus_answered hheard hrun (by decide)⟩

def bothAtOnce : List CrowdTurn :=
  [turnOf (Actor.sender 1), turnOf (Actor.sender 3), turnOf Actor.receiver,
    turnOf Actor.receiver, turnOf Actor.receiver]

/-- The call of the second sender is merged into that of the first, and nobody
answers it. -/
theorem surplus_abandoned :
    exists s, run twoSenders.step twoSenders.start bothAtOnce = some s ∧
      Abandoned twoSenders s 3 := by
  refine ⟨_, rfl, ?_⟩
  constructor
  case waits => rfl
  case unanswered => exact fun signal => by cases signal <;> rfl
  case unheard =>
    intro signal hcontra
    cases signal <;> cases hcontra
  case ignored => exact fun signal hcontra => by cases hcontra
  case busy => exact fun hcontra => by cases hcontra

end SignalCopy
end UnixPrograms
