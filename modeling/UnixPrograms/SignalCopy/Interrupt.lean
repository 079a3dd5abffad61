import UnixPrograms.SignalCopy.Crowd

/-!
# Interrupted transfers

`SIG_STOP` is `SIGINT`: whoever sits at the terminal of one of the parties can
send it, at any time and as often as they like.  The party that is interrupted
tells the other one, and both come to their end; what the receiver has written
by then is the beginning of the sender's file.
-/

namespace UnixPrograms
namespace SignalCopy

open Foundation

/-- A step of one of the parties, or `SIG_STOP` for one of them from a process
outside. -/
inductive Happening where
  | turn (party : Party)
  | interrupt (killer : Pid) (party : Party)
deriving DecidableEq

structure Interrupted where
  parties : State
  called : Bool

def Config.undisturbed (cfg : Config) : Interrupted where
  parties := cfg.start
  called := false

def Config.pid (cfg : Config) : Party -> Pid
  | Party.sender => cfg.senPid
  | Party.receiver => cfg.recPid

def happen (cfg : Config) (s : Interrupted) : Happening -> Option Interrupted
  | Happening.turn party =>
      (step cfg s.parties party).map
        (fun parties =>
          { s with
            parties := parties
            called := s.called || decide (party = Party.receiver) })
  | Happening.interrupt killer party =>
      some
        { s with
          parties :=
            { s.parties with
              kernel :=
                s.parties.kernel.kill killer (cfg.pid party) Signal.sigStop } }

/-- The interrupts come from other processes, and reach the receiver only
after its first wait: until then it takes whoever signals first for its
sender. -/
def Later (cfg : Config) (s : Interrupted) : Happening -> Prop
  | Happening.turn _ => True
  | Happening.interrupt killer party =>
      killer ≠ cfg.senPid ∧ killer ≠ cfg.recPid ∧
        (party = Party.receiver -> s.called = true)

instance (cfg : Config) (s : Interrupted) (happening : Happening) :
    Decidable (Later cfg s happening) := by
  cases happening with
  | turn party => exact isTrue trivial
  | interrupt killer party =>
      unfold Later
      infer_instance

def InOrderTurn (s : Interrupted) : Happening -> Prop
  | Happening.turn party => InOrder s.parties party
  | Happening.interrupt _ _ => True

instance (s : Interrupted) (happening : Happening) :
    Decidable (InOrderTurn s happening) := by
  cases happening with
  | turn party =>
      unfold InOrderTurn
      infer_instance
  | interrupt killer party => exact isTrue trivial

/-!
## Where the parties can be
-/

/-- The points of a sender, with those that only an interrupt leads to. -/
inductive SenderPlace where
  | on (sp : SenderPoint)
  | stopping (file : List (UInt8 × UInt32))
  | exited

inductive ReceiverPlace where
  | on (rp : ReceiverPoint)
  | dismissing (r : Receiver)

def SenderPlace.code (cfg : Config) : SenderPlace -> Prog Unit
  | SenderPlace.on sp => sp.code cfg
  | SenderPlace.stopping file =>
      Program.call (Op.kill cfg.recPid Signal.sigStop)
        (fun _ => sendFile cfg.recPid file Signal.sigStop)
  | SenderPlace.exited => Program.halt { code := cfg.senPid }

def ReceiverPlace.code (cfg : Config) : ReceiverPlace -> Prog Receiver
  | ReceiverPlace.on rp => rp.code cfg
  | ReceiverPlace.dismissing r =>
      Program.call (Op.kill r.senPid Signal.sigFinish)
        (fun _ => Program.ret { r with flag := false })

inductive SenderSends (cfg : Config) :
    SenderPlace -> Signal -> SenderPlace -> Prop where
  | call :
      SenderSends cfg (SenderPlace.on SenderPoint.start) Signal.sigContinue
        (SenderPlace.on SenderPoint.connected)
  | bit (value : Nat) (arr : List Nat) (file : List (UInt8 × UInt32)) :
      SenderSends cfg (SenderPlace.on (SenderPoint.bit value arr file))
        (if value = 0 then Signal.sigGet0 else Signal.sigGet1)
        (SenderPlace.on (SenderPoint.wait arr file))
  | stop (file : List (UInt8 × UInt32)) :
      SenderSends cfg (SenderPlace.stopping file) Signal.sigStop
        (SenderPlace.on SenderPoint.finish)
  | finish :
      SenderSends cfg (SenderPlace.on SenderPoint.finish) Signal.sigFinish
        (SenderPlace.on SenderPoint.ended)

inductive SenderTakes (cfg : Config) :
    SenderPlace -> Signal -> SenderPlace -> Prop where
  | connected :
      SenderTakes cfg (SenderPlace.on SenderPoint.connected) Signal.sigContinue
        (SenderPlace.on (nextPoint [] cfg.file))
  | refused :
      SenderTakes cfg (SenderPlace.on SenderPoint.connected) Signal.sigFinish
        SenderPlace.exited
  | stopped :
      SenderTakes cfg (SenderPlace.on SenderPoint.connected) Signal.sigStop
        (SenderPlace.on SenderPoint.finish)
  | acknowledged (arr : List Nat) (file : List (UInt8 × UInt32)) :
      SenderTakes cfg (SenderPlace.on (SenderPoint.wait arr file))
        Signal.sigContinue (SenderPlace.on (nextPoint arr file))
  | dismissed (arr : List Nat) (file : List (UInt8 × UInt32)) :
      SenderTakes cfg (SenderPlace.on (SenderPoint.wait arr file))
        Signal.sigFinish (SenderPlace.on SenderPoint.finish)
  | interrupted (arr : List Nat) (file : List (UInt8 × UInt32)) :
      SenderTakes cfg (SenderPlace.on (SenderPoint.wait arr file))
        Signal.sigStop (SenderPlace.stopping file)

inductive ReceiverSends (cfg : Config) :
    ReceiverPlace -> Signal -> ReceiverPlace -> Receiver -> Prop where
  | greet :
      ReceiverSends cfg (ReceiverPlace.on ReceiverPoint.greet)
        Signal.sigContinue
        (ReceiverPlace.on (ReceiverPoint.loop cfg.receiver)) cfg.receiver
  | acknowledge (r : Receiver) :
      ReceiverSends cfg (ReceiverPlace.on (ReceiverPoint.loop r))
        Signal.sigContinue (ReceiverPlace.on (ReceiverPoint.wait r)) r
  | dismiss (r : Receiver) :
      ReceiverSends cfg (ReceiverPlace.dismissing r) Signal.sigFinish
        (ReceiverPlace.on (ReceiverPoint.ended r.finish)) r.finish

inductive ReceiverTakes (cfg : Config) :
    ReceiverPlace -> Signal -> Pid -> ReceiverPlace -> Receiver -> Prop where
  | first (signal : Signal) :
      ReceiverTakes cfg (ReceiverPlace.on ReceiverPoint.first) signal
        cfg.senPid (ReceiverPlace.on ReceiverPoint.greet) cfg.receiver
  | heard (r : Receiver) (signal : Signal) :
      ReceiverTakes cfg (ReceiverPlace.on (ReceiverPoint.wait r)) signal
        cfg.senPid (ReceiverPlace.on (afterSwitch (r.switch signal)))
        (r.switch signal)
  | interrupted (r : Receiver) (q : Pid) (hother : q ≠ cfg.senPid) :
      ReceiverTakes cfg (ReceiverPlace.on (ReceiverPoint.wait r))
        Signal.sigStop q (ReceiverPlace.dismissing r) r

inductive Settled (cfg : Config) : ReceiverPlace -> Receiver -> Prop where
  | first :
      Settled cfg (ReceiverPlace.on ReceiverPoint.first) cfg.receiver
  | greet :
      Settled cfg (ReceiverPlace.on ReceiverPoint.greet) cfg.receiver
  | receiving (rp : ReceiverPoint) (r : Receiver) (h : Receiving rp r) :
      Settled cfg (ReceiverPlace.on rp) r
  | dismissing (r : Receiver) (hlen : r.arrLen < 8) :
      Settled cfg (ReceiverPlace.dismissing r) r

/-!
## What a step does
-/

/-- The receiver tells the sender to go on or to finish, the others can only
interrupt it. -/
def SenderMail (cfg : Config) (k : Kernel) : Prop :=
  forall signal q, k.pending cfg.senPid signal = some q ->
    q = cfg.recPid ∧
        (signal = Signal.sigContinue ∨ signal = Signal.sigFinish) ∨
      q ≠ cfg.recPid ∧ signal = Signal.sigStop

def ReceiverMail (cfg : Config) (k : Kernel) : Prop :=
  forall signal q, k.pending cfg.recPid signal = some q ->
    q = cfg.senPid ∨ signal = Signal.sigStop

theorem sendFile_stop (recPid : Pid) (file : List (UInt8 × UInt32)) :
    sendFile recPid file Signal.sigStop =
      Program.ask (Op.kill recPid Signal.sigFinish) := by
  cases file with
  | nil => rfl
  | cons entry file => rfl

theorem takes_connected {cfg : Config} {info : SigInfo}
    (hmail : info.siPid = cfg.recPid ∧
        (info.signal = Signal.sigContinue ∨ info.signal = Signal.sigFinish) ∨
      info.siPid ≠ cfg.recPid ∧ info.signal = Signal.sigStop) :
    exists p', SenderTakes cfg (SenderPlace.on SenderPoint.connected)
        info.signal p' ∧
      (if info.signal = Signal.sigFinish then
          Program.halt { code := cfg.senPid }
        else sendFile cfg.recPid cfg.file info.signal) = p'.code cfg := by
  rcases hmail with ⟨_, hcontinue | hfinish⟩ | ⟨_, hstop⟩
  · rw [hcontinue]
    exact ⟨_, SenderTakes.connected, nextPoint_code cfg [] cfg.file⟩
  · rw [hfinish]
    exact ⟨_, SenderTakes.refused, rfl⟩
  · rw [hstop, if_neg (by decide)]
    exact ⟨_, SenderTakes.stopped, sendFile_stop cfg.recPid cfg.file⟩

theorem takes_wait {cfg : Config} {info : SigInfo} (arr : List Nat)
    (file : List (UInt8 × UInt32))
    (hmail : info.siPid = cfg.recPid ∧
        (info.signal = Signal.sigContinue ∨ info.signal = Signal.sigFinish) ∨
      info.siPid ≠ cfg.recPid ∧ info.signal = Signal.sigStop) :
    exists p', SenderTakes cfg (SenderPlace.on (SenderPoint.wait arr file))
        info.signal p' ∧
      (sendBitesAnswer cfg.recPid arr info >>= sendFile cfg.recPid file) =
        p'.code cfg := by
  rcases hmail with ⟨hpid, hcontinue | hfinish⟩ | ⟨hpid, hstop⟩
  · rw [sendBitesAnswer, if_pos hpid, hcontinue]
    exact ⟨_, SenderTakes.acknowledged arr file, nextPoint_code cfg arr file⟩
  · rw [sendBitesAnswer, if_pos hpid, hfinish]
    exact ⟨_, SenderTakes.dismissed arr file,
      sendFile_finish cfg.recPid file⟩
  · rw [sendBitesAnswer, if_neg hpid, if_pos hstop, hstop]
    exact ⟨_, SenderTakes.interrupted arr file, rfl⟩

theorem sender_moves {cfg : Config} {s s' : State} {p : SenderPlace}
    (hsender : s.sender = p.code cfg) (hmail : SenderMail cfg s.kernel)
    (hstep : step cfg s Party.sender = some s') :
    s'.receiver = s.receiver ∧ exists p', s'.sender = p'.code cfg ∧
      ((exists signal, SenderSends cfg p signal p' ∧
          s'.kernel = s.kernel.kill cfg.senPid cfg.recPid signal) ∨
        exists signal q, SenderTakes cfg p signal p' ∧
          s.kernel.pending cfg.senPid signal = some q ∧
          s'.kernel = s.kernel.take cfg.senPid signal) := by
  have hsent : forall {target : Pid} {signal : Signal}
      {next : Unit -> Prog Unit} {p' : SenderPlace},
      s.sender = Program.call (Op.kill target signal) next ->
      target = cfg.recPid -> next () = p'.code cfg ->
      SenderSends cfg p signal p' ->
      s'.receiver = s.receiver ∧ exists p', s'.sender = p'.code cfg ∧
        ((exists signal, SenderSends cfg p signal p' ∧
            s'.kernel = s.kernel.kill cfg.senPid cfg.recPid signal) ∨
          exists signal q, SenderTakes cfg p signal p' ∧
            s.kernel.pending cfg.senPid signal = some q ∧
            s'.kernel = s.kernel.take cfg.senPid signal) := by
    intro target signal next p' hcode htarget hnext hsends
    rcases step_sender hcode hstep with ⟨answer, k, hexec, heq⟩
    injection hexec with hexec
    injection hexec with _ hk
    rw [heq, ← hk, htarget]
    exact ⟨rfl, p', hnext, Or.inl ⟨signal, hsends, rfl⟩⟩
  cases p with
  | on sp =>
      cases sp with
      | start => exact hsent hsender rfl rfl SenderSends.call
      | connected =>
          rcases step_sender hsender hstep with ⟨info, k, hexec, heq⟩
          rcases exec_sigwaitinfo hexec with ⟨_, hpending, hk, _⟩
          rcases takes_connected (hmail _ _ hpending) with ⟨p', htakes, hcode⟩
          rw [heq, hk]
          exact ⟨rfl, p', hcode, Or.inr ⟨_, _, htakes, hpending, rfl⟩⟩
      | bit value arr file =>
          exact hsent hsender rfl rfl (SenderSends.bit value arr file)
      | wait arr file =>
          rcases step_sender hsender hstep with ⟨info, k, hexec, heq⟩
          rcases exec_sigwaitinfo hexec with ⟨_, hpending, hk, _⟩
          rcases takes_wait arr file (hmail _ _ hpending) with
            ⟨p', htakes, hcode⟩
          rw [heq, hk]
          exact ⟨rfl, p', hcode, Or.inr ⟨_, _, htakes, hpending, rfl⟩⟩
      | finish => exact hsent hsender rfl rfl SenderSends.finish
      | ended =>
          rw [step, hsender] at hstep
          cases hstep
  | stopping file =>
      have hcode : sendFile cfg.recPid file Signal.sigStop =
          (SenderPlace.on SenderPoint.finish).code cfg :=
        sendFile_stop cfg.recPid file
      exact hsent hsender rfl hcode (SenderSends.stop file)
  | exited =>
      rw [step, hsender] at hstep
      cases hstep

theorem receiver_moves {cfg : Config} {s s' : State} {q : ReceiverPlace}
    {r : Receiver} (hreceiver : s.receiver = q.code cfg)
    (hsettled : Settled cfg q r) (hmain : r.senPid = cfg.senPid)
    (hmail : ReceiverMail cfg s.kernel)
    (hfirst : q = ReceiverPlace.on ReceiverPoint.first ->
      forall signal siPid, s.kernel.pending cfg.recPid signal = some siPid ->
        siPid = cfg.senPid)
    (hstep : step cfg s Party.receiver = some s') :
    s'.sender = s.sender ∧ exists q' r', s'.receiver = q'.code cfg ∧
      ((exists signal, ReceiverSends cfg q signal q' r' ∧
          s'.kernel = s.kernel.kill cfg.recPid cfg.senPid signal) ∨
        (exists signal siPid, ReceiverTakes cfg q signal siPid q' r' ∧
          s.kernel.pending cfg.recPid signal = some siPid ∧
          (forall sig, sig.number < signal.number ->
            s.kernel.pending cfg.recPid sig = none) ∧
          s'.kernel = s.kernel.take cfg.recPid signal) ∨
        (q = ReceiverPlace.on (ReceiverPoint.write r) ∧
          r' = { r with arrLen := 0 } ∧
          q' = ReceiverPlace.on (ReceiverPoint.loop r') ∧
          s'.kernel =
            { s.kernel with
              written := s.kernel.written ++ [UInt8.ofNat r.num] })) := by
  have hset : forall sig : Signal, sig ∈ receiverSigset := by
    intro sig
    cases sig <;> decide
  cases hsettled with
  | first =>
      rcases step_receiver hreceiver hstep with ⟨info, k, hexec, heq⟩
      rcases exec_sigwaitinfo hexec with ⟨_, hpending, hk, hlower⟩
      have hpid := hfirst rfl info.signal info.siPid hpending
      refine ⟨by rw [heq], ReceiverPlace.on ReceiverPoint.greet, cfg.receiver,
        ?_, Or.inr (Or.inl ⟨info.signal, cfg.senPid,
          ReceiverTakes.first info.signal, ?_, ?_, ?_⟩)⟩
      · have hcode : s'.receiver =
            Program.call (Op.kill info.siPid Signal.sigContinue)
              (fun _ => Program.ret
                { cfg.receiver with senPid := info.siPid }) := by
          rw [heq]
          rfl
        rw [hcode, hpid]
        rfl
      · rw [← hpid]
        exact hpending
      · exact fun sig hlt => hlower sig (hset sig) hlt
      · rw [heq, hk]
  | greet =>
      rcases step_receiver hreceiver hstep with ⟨answer, k, hexec, heq⟩
      injection hexec with hexec
      injection hexec with _ hk
      rw [heq, ← hk]
      exact ⟨rfl, _, _, rfl, Or.inl ⟨_, ReceiverSends.greet, rfl⟩⟩
  | dismissing r hlen =>
      rcases step_receiver hreceiver hstep with ⟨answer, k, hexec, heq⟩
      injection hexec with hexec
      injection hexec with _ hk
      rw [heq, ← hk]
      exact ⟨rfl, ReceiverPlace.on (ReceiverPoint.ended r.finish), r.finish,
        rfl, Or.inl ⟨_, ReceiverSends.dismiss r, by rw [hmain]⟩⟩
  | receiving rp r hreceiving =>
      cases hreceiving with
      | loop _ hflag hlen =>
          rcases step_receiver hreceiver hstep with ⟨answer, k, hexec, heq⟩
          injection hexec with hexec
          injection hexec with _ hk
          rw [heq, ← hk]
          exact ⟨rfl, ReceiverPlace.on (ReceiverPoint.wait r), r, rfl,
            Or.inl ⟨_, ReceiverSends.acknowledge r, by rw [hmain]⟩⟩
      | wait _ hflag hlen =>
          rcases step_receiver hreceiver hstep with ⟨info, k, hexec, heq⟩
          rcases exec_sigwaitinfo hexec with ⟨_, hpending, hk, hlower⟩
          have hcode : s'.receiver =
              receiverLoop cfg.recPid (receiverAnswer cfg.recPid r info) := by
            rw [heq]
            rfl
          by_cases hpid : info.siPid = cfg.senPid
          · refine ⟨by rw [heq], _, _, ?_, Or.inr (Or.inl ⟨info.signal,
              cfg.senPid, ReceiverTakes.heard r info.signal, ?_, ?_, ?_⟩)⟩
            · rw [hcode, receiverAnswer, if_pos (hmain.trans hpid.symm)]
              exact afterSwitch_code cfg (r.switch info.signal)
            · rw [← hpid]
              exact hpending
            · exact fun sig hlt => hlower sig (hset sig) hlt
            · rw [heq, hk]
          · have hstop : info.signal = Signal.sigStop :=
              (hmail info.signal info.siPid hpending).resolve_left hpid
            have hother : r.senPid ≠ info.siPid := by
              intro hcontra
              exact hpid (hcontra.symm.trans hmain)
            refine ⟨by rw [heq], ReceiverPlace.dismissing r, r, ?_,
              Or.inr (Or.inl ⟨Signal.sigStop, info.siPid,
                ReceiverTakes.interrupted r info.siPid hpid, ?_, ?_, ?_⟩)⟩
            · rw [hcode, receiverAnswer, if_neg hother, if_pos hstop]
              rfl
            · rw [← hstop]
              exact hpending
            · rw [← hstop]
              exact fun sig hlt => hlower sig (hset sig) hlt
            · rw [heq, hk, hstop]
      | write _ hflag hlen =>
          rcases step_receiver hreceiver hstep with ⟨answer, k, hexec, heq⟩
          injection hexec with hexec
          injection hexec with _ hk
          rw [heq, ← hk]
          refine ⟨rfl, _, { r with arrLen := 0 }, ?_,
            Or.inr (Or.inr ⟨rfl, rfl, rfl, rfl⟩)⟩
          change receiverLoop cfg.recPid (Program.ret { r with arrLen := 0 }) = _
          rw [receiverLoop, Program.again, if_pos hflag]
          rfl
      | ended _ hlen =>
          rw [step, hreceiver] at hstep
          cases hstep

/-!
## What holds in between

An interrupt sends a party to its end, from where it still signals the other
one.  Whoever ends leaves the other a signal to end by.
-/

def SenderPlace.Early : SenderPlace -> Prop
  | SenderPlace.on SenderPoint.start => True
  | SenderPlace.on SenderPoint.connected => True
  | SenderPlace.on SenderPoint.finish => True
  | SenderPlace.on SenderPoint.ended => True
  | _ => False

def SenderPlace.Closing : SenderPlace -> Prop
  | SenderPlace.on SenderPoint.finish => True
  | SenderPlace.on SenderPoint.ended => True
  | _ => False

def SenderPlace.Waits : SenderPlace -> Prop
  | SenderPlace.on sp => sp.Waits
  | _ => False

def ReceiverPlace.Early : ReceiverPlace -> Prop
  | ReceiverPlace.on ReceiverPoint.first => True
  | ReceiverPlace.on ReceiverPoint.greet => True
  | _ => False

def ReceiverPlace.Waits : ReceiverPlace -> Prop
  | ReceiverPlace.on (ReceiverPoint.wait _) => True
  | _ => False

def ReceiverPlace.Gone : ReceiverPlace -> Prop
  | ReceiverPlace.on (ReceiverPoint.ended _) => True
  | _ => False

def ReceiverPlace.Leaving : ReceiverPlace -> Prop
  | ReceiverPlace.on (ReceiverPoint.ended _) => True
  | ReceiverPlace.dismissing _ => True
  | _ => False

/-- The two parties and their pending signals, with interrupts at any time.
Who ends leaves the other a signal to end by. -/
structure Holding (cfg : Config) (k : Kernel) (called : Bool)
    (p : SenderPlace) (q : ReceiverPlace) (r : Receiver) : Prop where
  settled : Settled cfg q r
  main : r.senPid = cfg.senPid
  chosen : called = true -> q ≠ ReceiverPlace.on ReceiverPoint.first
  senderMail : SenderMail cfg k
  receiverMail : ReceiverMail cfg k
  early : q = ReceiverPlace.on ReceiverPoint.first -> forall signal pid,
    k.pending cfg.recPid signal = some pid -> pid = cfg.senPid ∧
      (signal = Signal.sigContinue ∨ signal = Signal.sigFinish)
  ungreeted : q.Early -> p.Early ∧ forall signal pid,
    k.pending cfg.senPid signal = some pid -> signal = Signal.sigStop
  calling : q = ReceiverPlace.on ReceiverPoint.first ->
    p ≠ SenderPlace.on SenderPoint.start ->
    k.pending cfg.recPid Signal.sigContinue = some cfg.senPid
  stopped : k.pending cfg.recPid Signal.sigStop = some cfg.senPid -> p.Closing
  finished : forall pid, k.pending cfg.recPid Signal.sigFinish = some pid ->
    p = SenderPlace.on SenderPoint.ended
  closing : p = SenderPlace.on SenderPoint.ended -> q.Leaving ∨
    exists pid, k.pending cfg.recPid Signal.sigFinish = some pid
  gone : q.Gone -> (p.Closing ∨ p = SenderPlace.exited) ∨
    exists pid, k.pending cfg.senPid Signal.sigFinish = some pid
  farewell : (p = SenderPlace.exited ∨
    exists pid, k.pending cfg.senPid Signal.sigFinish = some pid) -> q.Gone
  underWay : p.Waits -> q.Waits ->
    (exists pid, k.pending cfg.senPid Signal.sigContinue = some pid) ∨
      exists signal pid, k.pending cfg.recPid signal = some pid

theorem holding_start (cfg : Config) :
    Holding cfg cfg.start.kernel false (SenderPlace.on SenderPoint.start)
      (ReceiverPlace.on ReceiverPoint.first) cfg.receiver where
  settled := Settled.first
  main := rfl
  chosen hcontra := by cases hcontra
  senderMail _ _ hpending := by cases hpending
  receiverMail _ _ hpending := by cases hpending
  early _ _ _ hpending := by cases hpending
  ungreeted _ := ⟨trivial, fun _ _ hpending => by cases hpending⟩
  calling _ hstart := absurd rfl hstart
  stopped hpending := by cases hpending
  finished _ hpending := by cases hpending
  closing hended := by cases hended
  gone hgone := hgone.elim
  farewell hfarewell := by
    rcases hfarewell with hexited | ⟨pid, hpending⟩
    · cases hexited
    · cases hpending
  underWay hwaits := hwaits.elim

/-!
## Steps of the sender
-/

theorem SenderSends.of_early {cfg : Config} {p p' : SenderPlace}
    {signal : Signal} (h : SenderSends cfg p signal p') (hearly : p.Early) :
    (signal = Signal.sigContinue ∨ signal = Signal.sigFinish) ∧ p'.Early := by
  cases h with
  | call => exact ⟨Or.inl rfl, trivial⟩
  | bit value arr file => exact hearly.elim
  | stop file => exact hearly.elim
  | finish => exact ⟨Or.inr rfl, trivial⟩

theorem SenderSends.of_closing {cfg : Config} {p p' : SenderPlace}
    {signal : Signal} (h : SenderSends cfg p signal p')
    (hclosing : p.Closing) : p'.Closing := by
  cases h with
  | call => exact hclosing.elim
  | bit value arr file => exact hclosing.elim
  | stop file => exact hclosing.elim
  | finish => trivial

theorem SenderSends.of_stop {cfg : Config} {p p' : SenderPlace}
    {signal : Signal} (h : SenderSends cfg p signal p')
    (hstop : signal = Signal.sigStop) : p'.Closing := by
  cases h with
  | call => cases hstop
  | bit value arr file =>
      split at hstop
      · cases hstop
      · cases hstop
  | stop file => trivial
  | finish => trivial

theorem SenderSends.finish_iff {cfg : Config} {p p' : SenderPlace}
    {signal : Signal} (h : SenderSends cfg p signal p') :
    signal = Signal.sigFinish <-> p' = SenderPlace.on SenderPoint.ended := by
  cases h with
  | call => simp
  | bit value arr file => split <;> simp
  | stop file => simp
  | finish => simp

theorem SenderSends.busy {cfg : Config} {p p' : SenderPlace} {signal : Signal}
    (h : SenderSends cfg p signal p') :
    p ≠ SenderPlace.exited ∧ p ≠ SenderPlace.on SenderPoint.ended ∧
      p' ≠ SenderPlace.exited := by
  cases h <;> simp

theorem pending_sent (cfg : Config) (k : Kernel) (sender : Pid)
    (signal : Signal) :
    (k.kill sender cfg.recPid signal).pending cfg.recPid signal =
      some ((k.pending cfg.recPid signal).getD sender) := by
  rw [pending_kill, if_pos ⟨rfl, rfl⟩]

theorem Holding.sender_sends {cfg : Config} {k : Kernel} {called : Bool}
    {p p' : SenderPlace} {q : ReceiverPlace} {r : Receiver}
    (h : Holding cfg k called p q r) {signal : Signal}
    (hsends : SenderSends cfg p signal p') :
    Holding cfg (k.kill cfg.senPid cfg.recPid signal) called p' q r := by
  have hsame := pending_kill_sender cfg k signal
  rcases hsends.busy with ⟨hexited, hended, hexited'⟩
  constructor
  case settled => exact h.settled
  case main => exact h.main
  case chosen => exact h.chosen
  case senderMail =>
    intro sig pid hpending
    rw [hsame] at hpending
    exact h.senderMail sig pid hpending
  case receiverMail =>
    intro sig pid hpending
    rcases pending_of_kill hpending with hbefore | ⟨_, hpid⟩
    · exact h.receiverMail sig pid hbefore
    · exact Or.inl hpid
  case early =>
    intro hfirst sig pid hpending
    rcases pending_of_kill hpending with hbefore | ⟨hsig, hpid⟩
    · exact h.early hfirst sig pid hbefore
    · have hearly := (h.ungreeted (by rw [hfirst]; trivial)).left
      rw [hsig]
      exact ⟨hpid, (hsends.of_early hearly).left⟩
  case ungreeted =>
    intro hearly
    rcases h.ungreeted hearly with ⟨hplace, hmail⟩
    refine ⟨(hsends.of_early hplace).right, ?_⟩
    intro sig pid hpending
    rw [hsame] at hpending
    exact hmail sig pid hpending
  case calling =>
    intro hfirst _
    by_cases hstart : p = SenderPlace.on SenderPoint.start
    · rw [hstart] at hsends
      cases hsends with
      | call =>
          rw [pending_sent]
          cases hpending : k.pending cfg.recPid Signal.sigContinue with
          | none => rfl
          | some pid => rw [(h.early hfirst _ pid hpending).left]; rfl
    · exact pending_kill_of_pending (h.calling hfirst hstart)
  case stopped =>
    intro hpending
    rcases pending_of_kill hpending with hbefore | ⟨hsig, _⟩
    · exact hsends.of_closing (h.stopped hbefore)
    · exact hsends.of_stop hsig.symm
  case finished =>
    intro pid hpending
    rcases pending_of_kill hpending with hbefore | ⟨hsig, _⟩
    · exact absurd (h.finished pid hbefore) hended
    · exact hsends.finish_iff.mp hsig.symm
  case closing =>
    intro hended'
    rw [hsends.finish_iff.mpr hended']
    exact Or.inr ⟨_, pending_sent cfg k cfg.senPid Signal.sigFinish⟩
  case gone =>
    intro hgone
    rcases h.gone hgone with (hclosing | hcontra) | ⟨pid, hpending⟩
    · exact Or.inl (Or.inl (hsends.of_closing hclosing))
    · exact absurd hcontra hexited
    · exact Or.inr ⟨pid, by rw [hsame]; exact hpending⟩
  case farewell =>
    intro hfarewell
    rcases hfarewell with hcontra | ⟨pid, hpending⟩
    · exact absurd hcontra hexited'
    · rw [hsame] at hpending
      exact h.farewell (Or.inr ⟨pid, hpending⟩)
  case underWay =>
    intro _ _
    exact Or.inr ⟨signal, _, pending_sent cfg k cfg.senPid signal⟩

theorem SenderTakes.waits {cfg : Config} {p p' : SenderPlace} {signal : Signal}
    (h : SenderTakes cfg p signal p') : p.Waits := by
  cases h <;> trivial

theorem SenderPlace.Waits.not_closing {p : SenderPlace} (h : p.Waits) :
    ¬ p.Closing ∧ p ≠ SenderPlace.exited ∧
      p ≠ SenderPlace.on SenderPoint.start ∧
      p ≠ SenderPlace.on SenderPoint.ended := by
  cases p with
  | on sp => cases sp <;> simp_all [SenderPlace.Waits, SenderPoint.Waits,
      SenderPlace.Closing]
  | stopping file => exact h.elim
  | exited => exact h.elim

theorem SenderTakes.goes_on {cfg : Config} {p p' : SenderPlace}
    {signal : Signal} (h : SenderTakes cfg p signal p') :
    ¬ p'.Waits ∧ p' ≠ SenderPlace.on SenderPoint.ended := by
  have hgo : forall arr file,
      ¬ (SenderPlace.on (nextPoint arr file)).Waits ∧
        SenderPlace.on (nextPoint arr file) ≠
          SenderPlace.on SenderPoint.ended := by
    intro arr file
    rcases nextPoint_goes_on arr file with ⟨hended, hwaits⟩
    refine ⟨hwaits, fun hcontra => ?_⟩
    injection hcontra with hcontra
    exact hended hcontra
  cases h with
  | connected => exact hgo [] cfg.file
  | acknowledged arr file => exact hgo arr file
  | refused => exact ⟨fun hwaits => hwaits, by simp⟩
  | stopped => exact ⟨fun hwaits => hwaits, by simp⟩
  | dismissed arr file => exact ⟨fun hwaits => hwaits, by simp⟩
  | interrupted arr file => exact ⟨fun hwaits => hwaits, by simp⟩

theorem SenderTakes.of_exited {cfg : Config} {p : SenderPlace} {signal : Signal}
    (h : SenderTakes cfg p signal SenderPlace.exited) :
    signal = Signal.sigFinish := by
  cases h with
  | refused => rfl

theorem SenderTakes.of_finish {cfg : Config} {p p' : SenderPlace}
    (h : SenderTakes cfg p Signal.sigFinish p') :
    p'.Closing ∨ p' = SenderPlace.exited := by
  cases h with
  | refused => exact Or.inr rfl
  | dismissed arr file => exact Or.inl trivial

theorem SenderTakes.of_stop {cfg : Config} {p p' : SenderPlace}
    (h : SenderTakes cfg p Signal.sigStop p') (hearly : p.Early) :
    p'.Early := by
  cases h with
  | stopped => trivial
  | interrupted arr file => exact hearly.elim

theorem Holding.sender_takes {cfg : Config} {k : Kernel} {called : Bool}
    {p p' : SenderPlace} {q : ReceiverPlace} {r : Receiver}
    (h : Holding cfg k called p q r) {signal : Signal} {pid : Pid}
    (htakes : SenderTakes cfg p signal p')
    (hpending : k.pending cfg.senPid signal = some pid) :
    Holding cfg (k.take cfg.senPid signal) called p' q r := by
  have hsame := pending_take_sender cfg k signal
  rcases htakes.waits.not_closing with ⟨hclosing, hexited, hstart, hended⟩
  constructor
  case settled => exact h.settled
  case main => exact h.main
  case chosen => exact h.chosen
  case senderMail =>
    intro sig pid' hpending'
    exact h.senderMail sig pid' (take_pending hpending')
  case receiverMail =>
    intro sig pid' hpending'
    rw [hsame] at hpending'
    exact h.receiverMail sig pid' hpending'
  case early =>
    intro hfirst sig pid' hpending'
    rw [hsame] at hpending'
    exact h.early hfirst sig pid' hpending'
  case ungreeted =>
    intro hearly
    rcases h.ungreeted hearly with ⟨hplace, hmail⟩
    rw [hmail signal pid hpending] at htakes
    refine ⟨htakes.of_stop hplace, ?_⟩
    intro sig pid' hpending'
    exact hmail sig pid' (take_pending hpending')
  case calling =>
    intro hfirst _
    rw [hsame]
    exact h.calling hfirst hstart
  case stopped =>
    intro hpending'
    rw [hsame] at hpending'
    exact absurd (h.stopped hpending') hclosing
  case finished =>
    intro pid' hpending'
    rw [hsame] at hpending'
    exact absurd (h.finished pid' hpending') hended
  case closing => exact fun hcontra => absurd hcontra htakes.goes_on.right
  case gone =>
    intro hgone
    rcases h.gone hgone with (hcontra | hcontra) | ⟨pid', hfinish⟩
    · exact absurd hcontra hclosing
    · exact absurd hcontra hexited
    · by_cases hsignal : signal = Signal.sigFinish
      · rw [hsignal] at htakes
        exact Or.inl htakes.of_finish
      · refine Or.inr ⟨pid', ?_⟩
        rw [pending_take, if_neg (fun heq => hsignal heq.right.symm)]
        exact hfinish
  case farewell =>
    intro hfarewell
    rcases hfarewell with hexited' | ⟨pid', hfinish⟩
    · rw [hexited'] at htakes
      rw [htakes.of_exited] at hpending
      exact h.farewell (Or.inr ⟨pid, hpending⟩)
    · exact h.farewell (Or.inr ⟨pid', take_pending hfinish⟩)
  case underWay => exact fun hwaits => absurd hwaits htakes.goes_on.left

/-!
## Steps of the receiver
-/

theorem receiving_afterSwitch {r : Receiver} (hflag : r.flag = true)
    (hlen : r.arrLen < 8) (signal : Signal) :
    Receiving (afterSwitch (r.switch signal)) (r.switch signal) ∧
      ¬ (ReceiverPlace.on (afterSwitch (r.switch signal))).Waits ∧
      ¬ (ReceiverPlace.on (afterSwitch (r.switch signal))).Early ∧
      ((ReceiverPlace.on (afterSwitch (r.switch signal))).Gone <->
        signal = Signal.sigFinish ∨ signal = Signal.sigStop) := by
  have hgoes : forall r' : Receiver, r'.flag = true -> r'.arrLen ≤ 8 ->
      Receiving (afterSwitch r') r' ∧
        ¬ (ReceiverPlace.on (afterSwitch r')).Waits ∧
        ¬ (ReceiverPlace.on (afterSwitch r')).Early ∧
        ¬ (ReceiverPlace.on (afterSwitch r')).Gone := by
    intro r' hflag' hlen'
    by_cases hfull : r'.arrLen = 8
    · rw [afterSwitch, if_pos hfull]
      exact ⟨Receiving.write r' hflag' hfull, id, id, id⟩
    · rw [afterSwitch, if_neg hfull, if_pos hflag']
      exact ⟨Receiving.loop r' hflag' (by lia), id, id, id⟩
  have hends : forall r' : Receiver, r'.flag = false -> r'.arrLen < 8 ->
      Receiving (afterSwitch r') r' ∧
        ¬ (ReceiverPlace.on (afterSwitch r')).Waits ∧
        ¬ (ReceiverPlace.on (afterSwitch r')).Early ∧
        (ReceiverPlace.on (afterSwitch r')).Gone := by
    intro r' hflag' hlen'
    have hshort : r'.arrLen ≠ 8 := Nat.ne_of_lt hlen'
    rw [afterSwitch, if_neg hshort, if_neg (by rw [hflag']; decide)]
    exact ⟨Receiving.ended r' hlen', id, id, trivial⟩
  cases signal with
  | sigStop =>
      rcases hends (r.switch Signal.sigStop) rfl hlen with ⟨h1, h2, h3, h4⟩
      exact ⟨h1, h2, h3, by simp [h4]⟩
  | sigGet0 =>
      rcases hgoes (r.switch Signal.sigGet0) hflag hlen with ⟨h1, h2, h3, h4⟩
      exact ⟨h1, h2, h3, by simp [h4]⟩
  | sigGet1 =>
      rcases hgoes (r.switch Signal.sigGet1) hflag hlen with ⟨h1, h2, h3, h4⟩
      exact ⟨h1, h2, h3, by simp [h4]⟩
  | sigContinue =>
      rcases hgoes (r.switch Signal.sigContinue) hflag (Nat.le_of_lt hlen) with
        ⟨h1, h2, h3, h4⟩
      exact ⟨h1, h2, h3, by simp [h4]⟩
  | sigFinish =>
      rcases hends (r.switch Signal.sigFinish) rfl hlen with ⟨h1, h2, h3, h4⟩
      exact ⟨h1, h2, h3, by simp [h4]⟩

theorem ReceiverSends.cases {cfg : Config} {q q' : ReceiverPlace}
    {r' : Receiver} {signal : Signal}
    (h : ReceiverSends cfg q signal q' r') :
    q ≠ ReceiverPlace.on ReceiverPoint.first ∧ ¬ q.Gone ∧ ¬ q'.Early ∧
      (signal = Signal.sigContinue ∧ ¬ q.Leaving ∧ ¬ q'.Gone ∨
        signal = Signal.sigFinish ∧ q'.Gone ∧ ¬ q'.Waits) := by
  cases h with
  | greet => exact ⟨by simp, id, id, Or.inl ⟨rfl, id, id⟩⟩
  | acknowledge r => exact ⟨by simp, id, id, Or.inl ⟨rfl, id, id⟩⟩
  | dismiss r => exact ⟨by simp, id, id, Or.inr ⟨rfl, trivial, id⟩⟩

theorem ReceiverPlace.Gone.leaving {q : ReceiverPlace} (h : q.Gone) :
    q.Leaving := by
  cases q with
  | on rp =>
      cases rp with
      | ended r => trivial
      | first => exact h.elim
      | greet => exact h.elim
      | loop r => exact h.elim
      | wait r => exact h.elim
      | write r => exact h.elim
  | dismissing r => exact h.elim

theorem not_early_first {q : ReceiverPlace} (h : ¬ q.Early) :
    q ≠ ReceiverPlace.on ReceiverPoint.first := by
  intro hcontra
  rw [hcontra] at h
  exact h trivial

theorem ReceiverSends.settled {cfg : Config} {q q' : ReceiverPlace}
    {r r' : Receiver} {signal : Signal} (h : ReceiverSends cfg q signal q' r')
    (hsettled : Settled cfg q r) (hmain : r.senPid = cfg.senPid) :
    Settled cfg q' r' ∧ r'.senPid = cfg.senPid := by
  cases h with
  | greet =>
      exact ⟨Settled.receiving _ _
        (Receiving.loop cfg.receiver rfl (Nat.zero_lt_succ 7)), rfl⟩
  | acknowledge r' =>
      cases hsettled with
      | receiving _ _ hreceiving =>
          cases hreceiving with
          | loop _ hflag hlen =>
              exact ⟨Settled.receiving _ _ (Receiving.wait _ hflag hlen),
                hmain⟩
  | dismiss r' =>
      cases hsettled with
      | dismissing _ hlen =>
          exact ⟨Settled.receiving _ _ (Receiving.ended _ hlen), hmain⟩

theorem Holding.receiver_sends {cfg : Config} {k : Kernel} {called : Bool}
    {p : SenderPlace} {q q' : ReceiverPlace} {r r' : Receiver}
    (h : Holding cfg k called p q r) {signal : Signal}
    (hsends : ReceiverSends cfg q signal q' r') :
    Holding cfg (k.kill cfg.recPid cfg.senPid signal) true p q' r' := by
  have hsame := pending_acknowledge cfg k signal
  rcases hsends.settled h.settled h.main with ⟨hsettled, hmain⟩
  rcases hsends.cases with ⟨hfirst, hgone, hearly, hkind⟩
  constructor
  case settled => exact hsettled
  case main => exact hmain
  case chosen => exact fun _ => not_early_first hearly
  case senderMail =>
    intro sig pid hpending
    rcases pending_of_kill hpending with hbefore | ⟨hsig, hpid⟩
    · exact h.senderMail sig pid hbefore
    · rw [hsig]
      exact Or.inl ⟨hpid, hkind.imp And.left And.left⟩
  case receiverMail =>
    intro sig pid hpending
    rw [hsame] at hpending
    exact h.receiverMail sig pid hpending
  case early => exact fun hcontra => absurd hcontra (not_early_first hearly)
  case ungreeted => exact fun hcontra => absurd hcontra hearly
  case calling => exact fun hcontra => absurd hcontra (not_early_first hearly)
  case stopped =>
    intro hpending
    rw [hsame] at hpending
    exact h.stopped hpending
  case finished =>
    intro pid hpending
    rw [hsame] at hpending
    exact h.finished pid hpending
  case closing =>
    intro hended
    rcases hkind with ⟨_, hleaving, _⟩ | ⟨_, hgone', _⟩
    · rcases h.closing hended with hcontra | ⟨pid, hpending⟩
      · exact absurd hcontra hleaving
      · exact Or.inr ⟨pid, by rw [hsame]; exact hpending⟩
    · exact Or.inl hgone'.leaving
  case gone =>
    intro hgone'
    rcases hkind with ⟨_, _, hcontra⟩ | ⟨hfinish, _, _⟩
    · exact absurd hgone' hcontra
    · rw [hfinish]
      exact Or.inr ⟨_, by rw [pending_kill, if_pos ⟨rfl, rfl⟩]⟩
  case farewell =>
    intro hfarewell
    rcases hkind with ⟨hcontinue, _, _⟩ | ⟨_, hgone', _⟩
    · refine absurd (h.farewell (hfarewell.imp_right ?_)) hgone
      rintro ⟨pid, hpending⟩
      rcases pending_of_kill hpending with hbefore | ⟨hsig, _⟩
      · exact ⟨pid, hbefore⟩
      · rw [hcontinue] at hsig
        cases hsig
    · exact hgone'
  case underWay =>
    intro _ hwaits
    rcases hkind with ⟨hcontinue, _, _⟩ | ⟨_, _, hcontra⟩
    · rw [hcontinue]
      exact Or.inl ⟨_, by rw [pending_kill, if_pos ⟨rfl, rfl⟩]⟩
    · exact absurd hwaits hcontra

theorem ReceiverTakes.settled {cfg : Config} {q q' : ReceiverPlace}
    {r r' : Receiver} {signal : Signal} {pid : Pid}
    (h : ReceiverTakes cfg q signal pid q' r') (hsettled : Settled cfg q r)
    (hmain : r.senPid = cfg.senPid) :
    Settled cfg q' r' ∧ r'.senPid = cfg.senPid ∧ ¬ q.Leaving ∧ ¬ q'.Waits ∧
      q' ≠ ReceiverPlace.on ReceiverPoint.first ∧
      (q'.Early -> q = ReceiverPlace.on ReceiverPoint.first) ∧
      (q'.Gone -> pid = cfg.senPid ∧
        (signal = Signal.sigFinish ∨ signal = Signal.sigStop)) ∧
      (q ≠ ReceiverPlace.on ReceiverPoint.first ->
        signal = Signal.sigFinish -> q'.Leaving) := by
  cases h with
  | first _ =>
      exact ⟨Settled.greet, rfl, id, id, by simp, fun _ => rfl,
        fun hcontra => hcontra.elim, fun hcontra => absurd rfl hcontra⟩
  | heard r' _ =>
      cases hsettled with
      | receiving _ _ hreceiving =>
          cases hreceiving with
          | wait _ hflag hlen =>
              rcases receiving_afterSwitch hflag hlen signal with
                ⟨hafter, hwaits, hearly, hgone⟩
              exact ⟨Settled.receiving _ _ hafter,
                (switch_senPid _ signal).trans hmain, id, hwaits,
                not_early_first hearly, fun hcontra => absurd hcontra hearly,
                fun h => ⟨rfl, hgone.mp h⟩,
                fun _ hfinish => (hgone.mpr (Or.inl hfinish)).leaving⟩
  | interrupted r' _ hother =>
      cases hsettled with
      | receiving _ _ hreceiving =>
          cases hreceiving with
          | wait _ hflag hlen =>
              exact ⟨Settled.dismissing _ hlen, hmain, id, id, by simp,
                fun hcontra => hcontra.elim, fun hcontra => hcontra.elim,
                fun _ _ => trivial⟩

theorem Holding.receiver_takes {cfg : Config} {k : Kernel} {called : Bool}
    {p : SenderPlace} {q q' : ReceiverPlace} {r r' : Receiver}
    (h : Holding cfg k called p q r) {signal : Signal} {pid : Pid}
    (htakes : ReceiverTakes cfg q signal pid q' r')
    (hpending : k.pending cfg.recPid signal = some pid)
    (hlower : forall sig, sig.number < signal.number ->
      k.pending cfg.recPid sig = none) :
    Holding cfg (k.take cfg.recPid signal) true p q' r' := by
  have hsame := pending_take_receiver cfg k signal
  rcases htakes.settled h.settled h.main with
    ⟨hsettled, hmain, hleaving, hwaits, hfirst, hearly, hgone, hfinish⟩
  have hstays : ¬ q.Gone := fun hcontra => hleaving hcontra.leaving
  constructor
  case settled => exact hsettled
  case main => exact hmain
  case chosen => exact fun _ => hfirst
  case senderMail =>
    intro sig pid' hpending'
    rw [hsame] at hpending'
    exact h.senderMail sig pid' hpending'
  case receiverMail =>
    intro sig pid' hpending'
    exact h.receiverMail sig pid' (take_pending hpending')
  case early => exact fun hcontra => absurd hcontra hfirst
  case ungreeted =>
    intro hearly'
    rcases h.ungreeted (by rw [hearly hearly']; trivial) with ⟨hplace, hmail⟩
    refine ⟨hplace, ?_⟩
    intro sig pid' hpending'
    rw [hsame] at hpending'
    exact hmail sig pid' hpending'
  case calling => exact fun hcontra => absurd hcontra hfirst
  case stopped => exact fun hpending' => h.stopped (take_pending hpending')
  case finished =>
    intro pid' hpending'
    exact h.finished pid' (take_pending hpending')
  case closing =>
    intro hended
    rcases h.closing hended with hcontra | ⟨pid', hannounced⟩
    · exact absurd hcontra hleaving
    · by_cases hsignal : signal = Signal.sigFinish
      · by_cases hq : q = ReceiverPlace.on ReceiverPoint.first
        · have hcall := h.calling hq (by rw [hended]; simp)
          rw [hlower Signal.sigContinue (by rw [hsignal]; decide)] at hcall
          cases hcall
        · exact Or.inl (hfinish hq hsignal)
      · refine Or.inr ⟨pid', ?_⟩
        rw [pending_take, if_neg (fun heq => hsignal heq.right.symm)]
        exact hannounced
  case gone =>
    intro hgone'
    rcases hgone hgone' with ⟨hpid, hsignal | hsignal⟩
    · rw [hsignal] at hpending
      rw [h.finished pid hpending]
      exact Or.inl (Or.inl trivial)
    · rw [hsignal, hpid] at hpending
      exact Or.inl (Or.inl (h.stopped hpending))
  case farewell =>
    intro hfarewell
    refine absurd (h.farewell (hfarewell.imp_right ?_)) hstays
    rintro ⟨pid', hpending'⟩
    rw [hsame] at hpending'
    exact ⟨pid', hpending'⟩
  case underWay => exact fun _ hcontra => absurd hcontra hwaits

theorem Holding.receiver_writes {cfg : Config} {k : Kernel} {called : Bool}
    {p : SenderPlace} {r : Receiver} (written : Bytes)
    (h : Holding cfg k called p (ReceiverPlace.on (ReceiverPoint.write r)) r) :
    Holding cfg { k with written := written } true p
      (ReceiverPlace.on (ReceiverPoint.loop { r with arrLen := 0 }))
      { r with arrLen := 0 } := by
  have hflag : r.flag = true := by
    cases h.settled with
    | receiving _ _ hreceiving =>
        cases hreceiving with
        | write _ hflag hlen => exact hflag
  constructor
  case settled =>
    exact Settled.receiving _ _ (Receiving.loop _ hflag (Nat.zero_lt_succ 7))
  case main => exact h.main
  case chosen => simp
  case senderMail => exact h.senderMail
  case receiverMail => exact h.receiverMail
  case early => simp
  case ungreeted => exact fun hcontra => hcontra.elim
  case calling => simp
  case stopped => exact h.stopped
  case finished => exact h.finished
  case closing =>
    intro hended
    rcases h.closing hended with hcontra | hfinish
    · exact hcontra.elim
    · exact Or.inr hfinish
  case gone => exact fun hcontra => hcontra.elim
  case farewell => exact fun hfarewell => (h.farewell hfarewell).elim
  case underWay => exact fun _ hcontra => hcontra.elim

/-!
## Interrupts
-/

theorem Holding.sender_interrupted {cfg : Config} {k : Kernel} {called : Bool}
    {p : SenderPlace} {q : ReceiverPlace} {r : Receiver}
    (h : Holding cfg k called p q r) {killer : Pid}
    (hkiller : killer ≠ cfg.recPid) :
    Holding cfg (k.kill killer cfg.senPid Signal.sigStop) called p q r := by
  have hsame : forall sig,
      (k.kill killer cfg.senPid Signal.sigStop).pending cfg.recPid sig =
        k.pending cfg.recPid sig :=
    fun sig => pending_kill_other k Signal.sigStop sig cfg.distinct.symm
  have hfinish : forall pid,
      (k.kill killer cfg.senPid Signal.sigStop).pending cfg.senPid
        Signal.sigFinish = some pid ->
      k.pending cfg.senPid Signal.sigFinish = some pid := by
    intro pid hpending
    rcases pending_of_kill hpending with hbefore | ⟨hsig, _⟩
    · exact hbefore
    · cases hsig
  constructor
  case settled => exact h.settled
  case main => exact h.main
  case chosen => exact h.chosen
  case senderMail =>
    intro sig pid hpending
    rcases pending_of_kill hpending with hbefore | ⟨hsig, hpid⟩
    · exact h.senderMail sig pid hbefore
    · rw [hpid]
      exact Or.inr ⟨hkiller, hsig⟩
  case receiverMail =>
    intro sig pid hpending
    rw [hsame] at hpending
    exact h.receiverMail sig pid hpending
  case early =>
    intro hfirst sig pid hpending
    rw [hsame] at hpending
    exact h.early hfirst sig pid hpending
  case ungreeted =>
    intro hearly
    rcases h.ungreeted hearly with ⟨hplace, hmail⟩
    refine ⟨hplace, ?_⟩
    intro sig pid hpending
    rcases pending_of_kill hpending with hbefore | ⟨hsig, _⟩
    · exact hmail sig pid hbefore
    · exact hsig
  case calling =>
    intro hfirst hstart
    rw [hsame]
    exact h.calling hfirst hstart
  case stopped =>
    intro hpending
    rw [hsame] at hpending
    exact h.stopped hpending
  case finished =>
    intro pid hpending
    rw [hsame] at hpending
    exact h.finished pid hpending
  case closing =>
    intro hended
    rcases h.closing hended with hleaving | ⟨pid, hpending⟩
    · exact Or.inl hleaving
    · exact Or.inr ⟨pid, by rw [hsame]; exact hpending⟩
  case gone =>
    intro hgone
    rcases h.gone hgone with hplace | ⟨pid, hpending⟩
    · exact Or.inl hplace
    · exact Or.inr ⟨pid, pending_kill_of_pending hpending⟩
  case farewell =>
    intro hfarewell
    apply h.farewell
    apply hfarewell.imp_right
    rintro ⟨pid, hpending⟩
    exact ⟨pid, hfinish pid hpending⟩
  case underWay =>
    intro hsp hrp
    rcases h.underWay hsp hrp with ⟨pid, hpending⟩ | ⟨sig, pid, hpending⟩
    · exact Or.inl ⟨pid, pending_kill_of_pending hpending⟩
    · exact Or.inr ⟨sig, pid, by rw [hsame]; exact hpending⟩

theorem Holding.receiver_interrupted {cfg : Config} {k : Kernel}
    {called : Bool} {p : SenderPlace} {q : ReceiverPlace} {r : Receiver}
    (h : Holding cfg k called p q r) {killer : Pid}
    (hkiller : killer ≠ cfg.senPid) (hcalled : called = true) :
    Holding cfg (k.kill killer cfg.recPid Signal.sigStop) called p q r := by
  have hsame : forall sig,
      (k.kill killer cfg.recPid Signal.sigStop).pending cfg.senPid sig =
        k.pending cfg.senPid sig :=
    fun sig => pending_kill_other k Signal.sigStop sig cfg.distinct
  have hfirst := h.chosen hcalled
  constructor
  case settled => exact h.settled
  case main => exact h.main
  case chosen => exact h.chosen
  case senderMail =>
    intro sig pid hpending
    rw [hsame] at hpending
    exact h.senderMail sig pid hpending
  case receiverMail =>
    intro sig pid hpending
    rcases pending_of_kill hpending with hbefore | ⟨hsig, _⟩
    · exact h.receiverMail sig pid hbefore
    · exact Or.inr hsig
  case early => exact fun hcontra => absurd hcontra hfirst
  case ungreeted =>
    intro hearly
    rcases h.ungreeted hearly with ⟨hplace, hmail⟩
    refine ⟨hplace, ?_⟩
    intro sig pid hpending
    rw [hsame] at hpending
    exact hmail sig pid hpending
  case calling => exact fun hcontra => absurd hcontra hfirst
  case stopped =>
    intro hpending
    rcases pending_of_kill hpending with hbefore | ⟨_, hpid⟩
    · exact h.stopped hbefore
    · exact absurd hpid.symm hkiller
  case finished =>
    intro pid hpending
    rcases pending_of_kill hpending with hbefore | ⟨hsig, _⟩
    · exact h.finished pid hbefore
    · cases hsig
  case closing =>
    intro hended
    rcases h.closing hended with hleaving | ⟨pid, hpending⟩
    · exact Or.inl hleaving
    · exact Or.inr ⟨pid, pending_kill_of_pending hpending⟩
  case gone =>
    intro hgone
    rcases h.gone hgone with hplace | ⟨pid, hpending⟩
    · exact Or.inl hplace
    · exact Or.inr ⟨pid, by rw [hsame]; exact hpending⟩
  case farewell =>
    intro hfarewell
    apply h.farewell
    apply hfarewell.imp_right
    rintro ⟨pid, hpending⟩
    rw [hsame] at hpending
    exact ⟨pid, hpending⟩
  case underWay =>
    intro hsp hrp
    rcases h.underWay hsp hrp with ⟨pid, hpending⟩ | ⟨sig, pid, hpending⟩
    · exact Or.inl ⟨pid, by rw [hsame]; exact hpending⟩
    · exact Or.inr ⟨sig, pid, pending_kill_of_pending hpending⟩

end SignalCopy
end UnixPrograms
