import UnixPrograms.SignalCopy.Interrupt
import UnixPrograms.SignalCopy.RoundTrip

/-!
# The end of an interrupted transfer

However often the two parties are interrupted, they take a bounded number of
turns, neither of them is left behind waiting, and what has been written is
the beginning of the file.
-/

namespace UnixPrograms
namespace SignalCopy

open Foundation

/-!
## The bits
-/

/-- The bits that have been written, stored, sent and not sent are those of the
file; a sender that goes on has just these left to send. -/
def Kept (cfg : Config) (k : Kernel) (p : SenderPlace) (r : Receiver) : Prop :=
  exists rest,
    bitStream 8 (k.written.map UInt8.toNat) ++ r.stored ++ pendingBits cfg k ++
        rest = fileBits cfg.file ∧
      forall sp, p = SenderPlace.on sp -> ¬ p.Closing ->
        rest = sp.bitsLeft cfg

theorem kept_start (cfg : Config) :
    Kept cfg cfg.start.kernel (SenderPlace.on SenderPoint.start)
      cfg.receiver := by
  refine ⟨fileBits cfg.file, rfl, ?_⟩
  intro sp hsp _
  injection hsp with hsp
  rw [← hsp]
  rfl

theorem pendingBits_of_data {cfg : Config} {k k' : Kernel}
    (hget0 : k'.pending cfg.recPid Signal.sigGet0 =
      k.pending cfg.recPid Signal.sigGet0)
    (hget1 : k'.pending cfg.recPid Signal.sigGet1 =
      k.pending cfg.recPid Signal.sigGet1) :
    pendingBits cfg k' = pendingBits cfg k := by
  rw [pendingBits, pendingBits, hget0, hget1]

theorem pendingBits_kill {cfg : Config} {k : Kernel} {sender target : Pid}
    {signal : Signal}
    (hother : ¬ (signal = Signal.sigGet0 ∨ signal = Signal.sigGet1)) :
    pendingBits cfg (k.kill sender target signal) = pendingBits cfg k := by
  apply pendingBits_of_data
  · rw [pending_kill, if_neg]
    rintro ⟨_, hsignal⟩
    exact hother (Or.inl hsignal.symm)
  · rw [pending_kill, if_neg]
    rintro ⟨_, hsignal⟩
    exact hother (Or.inr hsignal.symm)

theorem Kept.killed {cfg : Config} {k : Kernel} {p : SenderPlace}
    {r : Receiver} (h : Kept cfg k p r) {sender target : Pid} {signal : Signal}
    (hother : ¬ (signal = Signal.sigGet0 ∨ signal = Signal.sigGet1)) :
    Kept cfg (k.kill sender target signal) p r := by
  rcases h with ⟨rest, hbits, hleft⟩
  exact ⟨rest, by rw [written_kill, pendingBits_kill hother]; exact hbits,
    hleft⟩

theorem Kept.moved {cfg : Config} {k : Kernel} {p p' : SenderPlace}
    {r : Receiver} (h : Kept cfg k p r)
    (hmoved : forall sp', p' = SenderPlace.on sp' -> ¬ p'.Closing ->
      exists sp, p = SenderPlace.on sp ∧ ¬ p.Closing ∧
        sp'.bitsLeft cfg = sp.bitsLeft cfg) : Kept cfg k p' r := by
  rcases h with ⟨rest, hbits, hleft⟩
  refine ⟨rest, hbits, ?_⟩
  intro sp' hsp' hgoes'
  rcases hmoved sp' hsp' hgoes' with ⟨sp, hsp, hgoes, hsame⟩
  rw [hsame]
  exact hleft sp hsp hgoes

theorem Kept.sent {cfg : Config} {k : Kernel} {value : Nat} {arr : List Nat}
    {file : List (UInt8 × UInt32)} {r : Receiver}
    (h : Kept cfg k (SenderPlace.on (SenderPoint.bit value arr file)) r)
    {signal : Signal}
    (hsignal : signal = if value = 0 then Signal.sigGet0 else Signal.sigGet1)
    (horder : forall data, data ∈ [Signal.sigGet0, Signal.sigGet1] ->
      signal.number ≤ data.number -> k.pending cfg.recPid data = none) :
    Kept cfg (k.kill cfg.senPid cfg.recPid signal)
      (SenderPlace.on (SenderPoint.wait arr file)) r := by
  rcases h with ⟨rest, hbits, hleft⟩
  have hrest : rest = value :: arr ++ fileBits file := hleft _ rfl id
  have hvalue : value < 2 := by
    apply fileBits_lt
    rw [← hbits, hrest]
    simp
  refine ⟨arr ++ fileBits file, ?_, ?_⟩
  · rw [written_kill, pendingBits_send hvalue hsignal horder, ← hbits, hrest]
    simp
  · intro sp hsp _
    injection hsp with hsp
    rw [← hsp]
    rfl

theorem Kept.sender_sends {cfg : Config} {s : State} {p p' : SenderPlace}
    {r : Receiver} (h : Kept cfg s.kernel p r) {signal : Signal}
    (hsends : SenderSends cfg p signal p') (hcode : s.sender = p.code cfg)
    (horder : InOrder s Party.sender) :
    Kept cfg (s.kernel.kill cfg.senPid cfg.recPid signal) p' r := by
  cases hsends with
  | call =>
      refine Kept.killed (h.moved ?_) (by decide)
      intro sp' hsp' _
      injection hsp' with hsp'
      exact ⟨SenderPoint.start, rfl, id, by rw [← hsp']; rfl⟩
  | bit value arr file =>
      have hop : s.sender.nextOp = some (Op.kill cfg.recPid
          (if value = 0 then Signal.sigGet0 else Signal.sigGet1)) := by
        rw [hcode]
        rfl
      simp only [InOrder, hop] at horder
      exact h.sent rfl (horder (signal_of_bit rfl))
  | stop file =>
      refine Kept.killed (h.moved ?_) (by decide)
      exact fun _ _ hcontra => absurd trivial hcontra
  | finish =>
      refine Kept.killed (h.moved ?_) (by decide)
      exact fun _ _ hcontra => absurd trivial hcontra

theorem Kept.sender_takes {cfg : Config} {k : Kernel} {p p' : SenderPlace}
    {r : Receiver} (h : Kept cfg k p r) {signal : Signal}
    (htakes : SenderTakes cfg p signal p') :
    Kept cfg (k.take cfg.senPid signal) p' r := by
  have hsame : Kept cfg (k.take cfg.senPid signal) p r := by
    rcases h with ⟨rest, hbits, hleft⟩
    refine ⟨rest, ?_, hleft⟩
    rw [written_take, pendingBits_congr (pending_take_sender cfg k signal)]
    exact hbits
  apply hsame.moved
  intro sp' hsp' hgoes
  cases htakes with
  | connected =>
      injection hsp' with hsp'
      exact ⟨_, rfl, id, by rw [← hsp', bitsLeft_nextPoint]; rfl⟩
  | acknowledged arr file =>
      injection hsp' with hsp'
      exact ⟨_, rfl, id, by rw [← hsp', bitsLeft_nextPoint]; rfl⟩
  | refused => cases hsp'
  | stopped => exact absurd trivial hgoes
  | dismissed arr file => exact absurd trivial hgoes
  | interrupted arr file => cases hsp'

theorem Kept.receiver_sends {cfg : Config} {k : Kernel} {p : SenderPlace}
    {q q' : ReceiverPlace} {r r' : Receiver} (h : Kept cfg k p r)
    (hsettled : Settled cfg q r) {signal : Signal}
    (hsends : ReceiverSends cfg q signal q' r') :
    Kept cfg (k.kill cfg.recPid cfg.senPid signal) p r' := by
  have hother : ¬ (signal = Signal.sigGet0 ∨ signal = Signal.sigGet1) := by
    cases hsends <;> decide
  have hstored : r'.stored = r.stored := by
    cases hsends with
    | greet =>
        cases hsettled with
        | greet => rfl
        | receiving _ _ hreceiving => cases hreceiving
    | acknowledge _ =>
        cases hsettled with
        | receiving _ _ hreceiving =>
            cases hreceiving with
            | loop _ _ _ => rfl
    | dismiss _ =>
        cases hsettled with
        | dismissing _ _ => rfl
  rcases h.killed hother with ⟨rest, hbits, hleft⟩
  exact ⟨rest, by rw [hstored]; exact hbits, hleft⟩

theorem Kept.heard {cfg : Config} {k : Kernel} {p : SenderPlace} {r : Receiver}
    (h : Kept cfg k p r) {signal : Signal} {pid : Pid}
    (hpending : k.pending cfg.recPid signal = some pid)
    (hlower : forall sig, sig.number < signal.number ->
      k.pending cfg.recPid sig = none) :
    Kept cfg (k.take cfg.recPid signal) p (r.switch signal) := by
  rcases h with ⟨rest, hbits, hleft⟩
  refine ⟨rest, ?_, hleft⟩
  have hsome : (k.pending cfg.recPid signal).isSome = true := by
    rw [hpending]
    rfl
  have hsame : signal ≠ Signal.sigGet0 -> signal ≠ Signal.sigGet1 ->
      pendingBits cfg (k.take cfg.recPid signal) = pendingBits cfg k := by
    intro hget0 hget1
    apply pendingBits_of_data
    · rw [pending_take, if_neg (fun heq => hget0 heq.right.symm)]
    · rw [pending_take, if_neg (fun heq => hget1 heq.right.symm)]
  rw [written_take, ← hbits]
  cases signal with
  | sigGet0 =>
      rw [pendingBits_take hsome (Or.inl ⟨rfl, rfl⟩), Receiver.switch,
        stored_get0]
      simp
  | sigGet1 =>
      have hget0 := hlower Signal.sigGet0 (by decide)
      rw [pendingBits_take hsome (Or.inr ⟨rfl, rfl, hget0⟩), Receiver.switch,
        stored_get1]
      simp
  | sigStop =>
      rw [hsame (by decide) (by decide)]
      rfl
  | sigContinue =>
      rw [hsame (by decide) (by decide)]
      rfl
  | sigFinish =>
      rw [hsame (by decide) (by decide)]
      rfl

theorem Kept.receiver_takes {cfg : Config} {k : Kernel} {p : SenderPlace}
    {q q' : ReceiverPlace} {r r' : Receiver} (h : Kept cfg k p r)
    (hsettled : Settled cfg q r) {signal : Signal} {pid : Pid}
    (htakes : ReceiverTakes cfg q signal pid q' r')
    (hdata : q = ReceiverPlace.on ReceiverPoint.first ->
      signal = Signal.sigContinue ∨ signal = Signal.sigFinish)
    (hpending : k.pending cfg.recPid signal = some pid)
    (hlower : forall sig, sig.number < signal.number ->
      k.pending cfg.recPid sig = none) :
    Kept cfg (k.take cfg.recPid signal) p r' := by
  have hheard := h.heard hpending hlower
  cases htakes with
  | first _ =>
      cases hsettled with
      | first =>
          rcases hdata rfl with hcontinue | hfinish
          · rw [hcontinue] at hheard ⊢
            exact hheard
          · rw [hfinish] at hheard ⊢
            exact hheard
      | receiving _ _ hreceiving => cases hreceiving
  | heard _ _ =>
      cases hsettled with
      | receiving _ _ hreceiving =>
          cases hreceiving with
          | wait _ _ _ => exact hheard
  | interrupted _ _ hother =>
      cases hsettled with
      | receiving _ _ hreceiving =>
          cases hreceiving with
          | wait _ _ _ => exact hheard

theorem Kept.receiver_writes {cfg : Config} {k : Kernel} {p : SenderPlace}
    {r : Receiver} (h : Kept cfg k p r) (hlen : r.arrLen = 8) :
    Kept cfg { k with written := k.written ++ [UInt8.ofNat r.num] } p
      { r with arrLen := 0 } := by
  rcases h with ⟨rest, hbits, hleft⟩
  refine ⟨rest, ?_, hleft⟩
  have hbyte := bitsOf_written hlen (fun bit hbit => fileBits_lt (by
    rw [← hbits]
    simp [hbit]))
  have hempty : ({ r with arrLen := 0 } : Receiver).stored = [] := rfl
  have hnew : bitStream 8 ([UInt8.ofNat r.num].map UInt8.toNat) = r.stored := by
    rw [← hbyte]
    simp [bitStream]
  rw [← hbits, List.map_append, bitStream_append, hnew, hempty,
    List.append_nil]
  rfl

theorem Kept.beginning {cfg : Config} {k : Kernel} {p : SenderPlace}
    {r : Receiver} (h : Kept cfg k p r) : k.written <+: cfg.content := by
  rcases h with ⟨rest, hbits, _⟩
  have hlt : forall bytes : Bytes, forall num,
      num ∈ bytes.map UInt8.toNat -> num < 2 ^ 8 := by
    intro bytes num hnum
    rcases List.mem_map.mp hnum with ⟨b, _, heq⟩
    rw [← heq]
    exact b.toNat_lt
  rw [fileBits_eq, List.append_assoc, List.append_assoc] at hbits
  have htake := bitStream_beginning (by decide) (hlt k.written) (hlt _) ⟨_, hbits⟩
  rw [← List.map_take] at htake
  have hinjective : Function.Injective UInt8.toNat :=
    fun _ _ => UInt8.toNat.inj
  rw [List.map_injective_iff.mpr hinjective htake]
  exact List.take_prefix _ _

/-!
## The turns that are left

Each bit is worth two turns of the sender, each pending signal a round of the
receiver.  An interrupt adds at most one signal.
-/

def pendingCount (cfg : Config) (k : Kernel) : Nat :=
  ascending.countP (fun signal => (k.pending cfg.recPid signal).isSome)

def SenderPlace.weight (cfg : Config) : SenderPlace -> Nat
  | SenderPlace.on SenderPoint.start => 16 * cfg.file.length + 4
  | SenderPlace.on SenderPoint.connected => 16 * cfg.file.length + 3
  | SenderPlace.on (SenderPoint.bit _ arr file) =>
      2 * arr.length + 16 * file.length + 4
  | SenderPlace.on (SenderPoint.wait arr file) =>
      2 * arr.length + 16 * file.length + 3
  | SenderPlace.on SenderPoint.finish => 1
  | SenderPlace.on SenderPoint.ended => 0
  | SenderPlace.stopping _ => 2
  | SenderPlace.exited => 0

def ReceiverPlace.weight : ReceiverPlace -> Nat
  | ReceiverPlace.on ReceiverPoint.first => 1
  | ReceiverPlace.on ReceiverPoint.greet => 3
  | ReceiverPlace.on (ReceiverPoint.loop _) => 2
  | ReceiverPlace.on (ReceiverPoint.wait _) => 1
  | ReceiverPlace.on (ReceiverPoint.write _) => 3
  | ReceiverPlace.on (ReceiverPoint.ended _) => 0
  | ReceiverPlace.dismissing _ => 1

def potential (cfg : Config) (k : Kernel) (p : SenderPlace)
    (q : ReceiverPlace) : Nat :=
  5 * p.weight cfg + 4 * pendingCount cfg k + q.weight

theorem pendingCount_congr {cfg : Config} {k k' : Kernel}
    (h : forall signal, k'.pending cfg.recPid signal =
      k.pending cfg.recPid signal) :
    pendingCount cfg k' = pendingCount cfg k := by
  simp only [pendingCount, h]

theorem pendingCount_kill (cfg : Config) (k : Kernel) (sender target : Pid)
    (signal : Signal) :
    pendingCount cfg (k.kill sender target signal) ≤ pendingCount cfg k + 1 := by
  simp only [pendingCount, ascending, List.countP_cons, List.countP_nil,
    pending_kill]
  cases signal <;> grind

theorem pendingCount_take {cfg : Config} {k : Kernel} {signal : Signal}
    {pid : Pid} (h : k.pending cfg.recPid signal = some pid) :
    pendingCount cfg (k.take cfg.recPid signal) + 1 = pendingCount cfg k := by
  simp only [pendingCount, ascending, List.countP_cons, List.countP_nil,
    pending_take]
  cases signal <;> grind

theorem SenderSends.weight {cfg : Config} {p p' : SenderPlace} {signal : Signal}
    (h : SenderSends cfg p signal p') : p'.weight cfg + 1 = p.weight cfg := by
  cases h <;> rfl

theorem nextPoint_weight (cfg : Config) (arr : List Nat)
    (file : List (UInt8 × UInt32)) :
    (SenderPlace.on (nextPoint arr file)).weight cfg + 1 ≤
      2 * arr.length + 16 * file.length + 3 := by
  cases arr with
  | cons value arr =>
      simp only [nextPoint, SenderPlace.weight, List.length_cons]
      lia
  | nil =>
      cases file with
      | nil => simp [nextPoint, SenderPlace.weight]
      | cons entry file =>
          simp only [nextPoint, SenderPlace.weight, getBitesLoop,
            List.length_cons, List.length_nil]
          lia

theorem SenderTakes.weight {cfg : Config} {p p' : SenderPlace} {signal : Signal}
    (h : SenderTakes cfg p signal p') : p'.weight cfg + 1 ≤ p.weight cfg := by
  cases h with
  | connected =>
      have hnext := nextPoint_weight cfg [] cfg.file
      simp only [SenderPlace.weight, List.length_nil] at hnext ⊢
      lia
  | refused => simp [SenderPlace.weight]
  | stopped => simp [SenderPlace.weight]
  | acknowledged arr file => exact nextPoint_weight cfg arr file
  | dismissed arr file => simp [SenderPlace.weight]
  | interrupted arr file => simp [SenderPlace.weight]

theorem ReceiverSends.weight {cfg : Config} {q q' : ReceiverPlace}
    {r' : Receiver} {signal : Signal} (h : ReceiverSends cfg q signal q' r') :
    q'.weight + 1 = q.weight := by
  cases h <;> rfl

theorem ReceiverTakes.weight {cfg : Config} {q q' : ReceiverPlace}
    {r' : Receiver} {signal : Signal} {pid : Pid}
    (h : ReceiverTakes cfg q signal pid q' r') :
    q'.weight ≤ q.weight + 2 := by
  cases h with
  | first _ => exact Nat.le_refl 3
  | heard r _ =>
      rw [afterSwitch]
      split
      · exact Nat.le_refl 3
      · split
        · exact Nat.le_succ 2
        · exact Nat.zero_le 3
  | interrupted r _ hother => exact Nat.le_add_right 1 2

/-!
## Every run
-/

def Happening.cost : Happening -> Nat
  | Happening.turn _ => 1
  | Happening.interrupt _ _ => 0

def Happening.income : Happening -> Nat
  | Happening.turn _ => 0
  | Happening.interrupt _ _ => 4

def Happening.disturbs : Happening -> Nat
  | Happening.turn _ => 0
  | Happening.interrupt _ _ => 1

theorem total_income (happenings : List Happening) :
    total Happening.income happenings =
      4 * total Happening.disturbs happenings := by
  induction happenings with
  | nil => rfl
  | cons happening happenings ih =>
      rw [total, total, ih]
      cases happening with
      | turn party =>
          simp only [Happening.income, Happening.disturbs]
          lia
      | interrupt killer party =>
          simp only [Happening.income, Happening.disturbs]
          lia

/-- The invariant of an interrupted transfer, with `n` for what is left of the
potential; `ordered` says whether the bits are followed as well. -/
def Persisting (cfg : Config) (ordered : Prop) (n : Nat)
    (s : Interrupted) : Prop :=
  exists p q r, s.parties.sender = p.code cfg ∧
    s.parties.receiver = q.code cfg ∧
    Holding cfg s.parties.kernel s.called p q r ∧
    (ordered -> Kept cfg s.parties.kernel p r) ∧
    n = potential cfg s.parties.kernel p q

theorem persisting_start (cfg : Config) (ordered : Prop) :
    Persisting cfg ordered (80 * cfg.file.length + 21) cfg.undisturbed := by
  refine ⟨SenderPlace.on SenderPoint.start,
    ReceiverPlace.on ReceiverPoint.first, cfg.receiver, rfl, rfl,
    holding_start cfg, fun _ => kept_start cfg, ?_⟩
  have hcount : pendingCount cfg cfg.undisturbed.parties.kernel = 0 := rfl
  rw [potential, hcount, SenderPlace.weight, ReceiverPlace.weight]
  lia

theorem happen_turn {cfg : Config} {s s' : Interrupted} {party : Party}
    (h : happen cfg s (Happening.turn party) = some s') :
    step cfg s.parties party = some s'.parties ∧
      s'.called = (s.called || decide (party = Party.receiver)) := by
  rcases Option.map_eq_some_iff.mp h with ⟨parties, hstep, heq⟩
  rw [← heq]
  exact ⟨hstep, rfl⟩

theorem persisting_sender {cfg : Config} {ordered : Prop} {n : Nat}
    {s s' : Interrupted} (h : Persisting cfg ordered n s)
    (horder : ordered -> InOrder s.parties Party.sender)
    (hstep : happen cfg s (Happening.turn Party.sender) = some s') :
    exists m, Persisting cfg ordered m s' ∧ m + 1 ≤ n := by
  rcases h with ⟨p, q, r, hsender, hreceiver, hholding, hkept, hn⟩
  rcases happen_turn hstep with ⟨hparties, hcalled⟩
  have hsame : s'.called = s.called := by
    rw [hcalled]
    simp
  rcases sender_moves hsender hholding.senderMail hparties with
    ⟨hreceiver', p', hsender', ⟨signal, hsends, hkernel⟩ |
      ⟨signal, pid, htakes, hpending, hkernel⟩⟩
  · refine ⟨_, ⟨p', q, r, hsender', hreceiver'.trans hreceiver, ?_, ?_, rfl⟩,
      ?_⟩
    · rw [hkernel, hsame]
      exact hholding.sender_sends hsends
    · intro hordered
      rw [hkernel]
      exact (hkept hordered).sender_sends hsends hsender (horder hordered)
    · have hweight := hsends.weight
      have hcount :=
        pendingCount_kill cfg s.parties.kernel cfg.senPid cfg.recPid signal
      rw [hn, hkernel, potential, potential]
      lia
  · refine ⟨_, ⟨p', q, r, hsender', hreceiver'.trans hreceiver, ?_, ?_, rfl⟩,
      ?_⟩
    · rw [hkernel, hsame]
      exact hholding.sender_takes htakes hpending
    · intro hordered
      rw [hkernel]
      exact (hkept hordered).sender_takes htakes
    · have hweight := htakes.weight
      have hcount := pendingCount_congr
        (pending_take_sender cfg s.parties.kernel signal)
      rw [hn, hkernel, potential, potential, hcount]
      lia

theorem persisting_receiver {cfg : Config} {ordered : Prop} {n : Nat}
    {s s' : Interrupted} (h : Persisting cfg ordered n s)
    (hstep : happen cfg s (Happening.turn Party.receiver) = some s') :
    exists m, Persisting cfg ordered m s' ∧ m + 1 ≤ n := by
  rcases h with ⟨p, q, r, hsender, hreceiver, hholding, hkept, hn⟩
  rcases happen_turn hstep with ⟨hparties, hcalled⟩
  have hsame : s'.called = true := by
    rw [hcalled]
    simp
  have hfirst : q = ReceiverPlace.on ReceiverPoint.first ->
      forall signal siPid,
        s.parties.kernel.pending cfg.recPid signal = some siPid ->
        siPid = cfg.senPid :=
    fun hq signal siPid hpending =>
      (hholding.early hq signal siPid hpending).left
  rcases receiver_moves hreceiver hholding.settled hholding.main
    hholding.receiverMail hfirst hparties with
    ⟨hsender', q', r', hreceiver', ⟨signal, hsends, hkernel⟩ |
      ⟨signal, pid, htakes, hpending, hlower, hkernel⟩ |
      ⟨hq, hr', hq', hkernel⟩⟩
  · refine ⟨_, ⟨p, q', r', hsender'.trans hsender, hreceiver', ?_, ?_, rfl⟩,
      ?_⟩
    · rw [hkernel, hsame]
      exact hholding.receiver_sends hsends
    · intro hordered
      rw [hkernel]
      exact (hkept hordered).receiver_sends hholding.settled hsends
    · have hweight := hsends.weight
      have hcount := pendingCount_congr
        (pending_acknowledge cfg s.parties.kernel signal)
      rw [hn, hkernel, potential, potential, hcount]
      lia
  · refine ⟨_, ⟨p, q', r', hsender'.trans hsender, hreceiver', ?_, ?_, rfl⟩,
      ?_⟩
    · rw [hkernel, hsame]
      exact hholding.receiver_takes htakes hpending hlower
    · intro hordered
      rw [hkernel]
      exact (hkept hordered).receiver_takes hholding.settled htakes
        (fun hq => (hholding.early hq signal pid hpending).right) hpending
        hlower
    · have hweight := htakes.weight
      have hcount := pendingCount_take hpending
      rw [hn, hkernel, potential, potential]
      lia
  · rw [hq] at hholding
    rw [hr'] at hq'
    refine ⟨_, ⟨p, q', { r with arrLen := 0 }, hsender'.trans hsender,
      hreceiver', ?_, ?_, rfl⟩, ?_⟩
    · rw [hkernel, hsame, hq']
      exact hholding.receiver_writes _
    · intro hordered
      rw [hkernel]
      cases hholding.settled with
      | receiving _ _ hreceiving =>
          cases hreceiving with
          | write _ hflag hlen => exact (hkept hordered).receiver_writes hlen
    · rw [hn, hkernel, hq, hq', potential, potential]
      exact Nat.le_refl _

theorem persisting_interrupt {cfg : Config} {ordered : Prop} {n : Nat}
    {s s' : Interrupted} {killer : Pid} {party : Party}
    (h : Persisting cfg ordered n s)
    (hlater : Later cfg s (Happening.interrupt killer party))
    (hstep : happen cfg s (Happening.interrupt killer party) = some s') :
    exists m, Persisting cfg ordered m s' ∧ m ≤ n + 4 := by
  rcases h with ⟨p, q, r, hsender, hreceiver, hholding, hkept, hn⟩
  rcases hlater with ⟨hsen, hrec, hcalled⟩
  injection hstep with hstep
  rw [← hstep]
  refine ⟨_, ⟨p, q, r, hsender, hreceiver, ?_, ?_, rfl⟩, ?_⟩
  · cases party with
    | sender => exact hholding.sender_interrupted hrec
    | receiver => exact hholding.receiver_interrupted hsen (hcalled rfl)
  · exact fun hordered => (hkept hordered).killed (by decide)
  · have hcount := pendingCount_kill cfg s.parties.kernel killer
      (cfg.pid party) Signal.sigStop
    rw [hn, potential, potential]
    lia

theorem persisting_run {cfg : Config} {ordered : Prop}
    {happenings : List Happening} {s : Interrupted}
    (hguard : AllSteps (happen cfg)
      (fun s happening => Later cfg s happening ∧
        (ordered -> InOrderTurn s happening)) cfg.undisturbed happenings)
    (hrun : run (happen cfg) cfg.undisturbed happenings = some s) :
    exists m, Persisting cfg ordered m s ∧
      m + total Happening.cost happenings ≤
        80 * cfg.file.length + 21 +
          4 * total Happening.disturbs happenings := by
  rw [← total_income]
  apply run_potential (Persisting cfg ordered) Happening.cost Happening.income
    _ (persisting_start cfg ordered) hguard hrun
  intro n s happening s' hs hmeets hstep
  cases happening with
  | turn party =>
      cases party with
      | sender => exact persisting_sender hs hmeets.right hstep
      | receiver => exact persisting_receiver hs hstep
  | interrupt killer party => exact persisting_interrupt hs hmeets.left hstep

theorem idle_sender {cfg : Config} {k : Kernel} {p : SenderPlace}
    (h : Idle k cfg.senPid (p.code cfg)) :
    Ended (p.code cfg) ∧ ¬ p.Waits ∨
      p.Waits ∧ forall signal, signal ∈ senderSigset ->
        k.pending cfg.senPid signal = none := by
  cases p with
  | on sp =>
      cases sp with
      | start => exact h.elim
      | connected =>
          exact Or.inr ⟨trivial, fun _ hset => Idle.none_pending h hset⟩
      | bit value arr file => exact h.elim
      | wait arr file =>
          exact Or.inr ⟨trivial, fun _ hset => Idle.none_pending h hset⟩
      | finish => exact h.elim
      | ended => exact Or.inl ⟨rfl, id⟩
  | stopping file => exact h.elim
  | exited => exact Or.inl ⟨rfl, id⟩

theorem idle_receiver {cfg : Config} {k : Kernel} {q : ReceiverPlace}
    (h : Idle k cfg.recPid (q.code cfg)) :
    q.Gone ∧ Ended (q.code cfg) ∨
      ¬ q.Leaving ∧
        (q = ReceiverPlace.on ReceiverPoint.first ∨ q.Waits) ∧
        forall signal, k.pending cfg.recPid signal = none := by
  have hset : forall signal : Signal, signal ∈ receiverSigset := by
    intro signal
    cases signal <;> decide
  cases q with
  | on rp =>
      cases rp with
      | first =>
          exact Or.inr ⟨id, Or.inl rfl,
            fun signal => Idle.none_pending h (hset signal)⟩
      | greet => exact h.elim
      | loop r => exact h.elim
      | wait r =>
          exact Or.inr ⟨id, Or.inr trivial,
            fun signal => Idle.none_pending h (hset signal)⟩
      | write r => exact h.elim
      | ended r => exact Or.inl ⟨trivial, rfl⟩
  | dismissing r => exact h.elim

theorem ended_place {cfg : Config} {p : SenderPlace}
    (h : Ended (p.code cfg)) :
    p = SenderPlace.on SenderPoint.ended ∨ p = SenderPlace.exited := by
  cases p with
  | on sp => exact Or.inl (by rw [ended_sender h])
  | stopping file => cases h
  | exited => exact Or.inr rfl

theorem Holding.all_ended {cfg : Config} {k : Kernel} {called : Bool}
    {p : SenderPlace} {q : ReceiverPlace} {r : Receiver}
    (h : Holding cfg k called p q r) (hsender : Idle k cfg.senPid (p.code cfg))
    (hreceiver : Idle k cfg.recPid (q.code cfg)) :
    Ended (p.code cfg) ∧ Ended (q.code cfg) := by
  rcases idle_receiver hreceiver with
    ⟨hgone, hended⟩ | ⟨hleaving, hplace, hnone⟩
  · refine ⟨?_, hended⟩
    rcases idle_sender hsender with ⟨hended', _⟩ | ⟨hwaits, hnone⟩
    · exact hended'
    · rcases hwaits.not_closing with ⟨hclosing, hexited, _, _⟩
      rcases h.gone hgone with (hcontra | hcontra) | ⟨pid, hpending⟩
      · exact absurd hcontra hclosing
      · exact absurd hcontra hexited
      · rw [hnone Signal.sigFinish (by decide)] at hpending
        cases hpending
  · refine absurd ?_ hleaving
    rcases idle_sender hsender with ⟨hended, _⟩ | ⟨hwaits, hanswers⟩
    · rcases ended_place hended with hend | hexited
      · rcases h.closing hend with hleft | ⟨pid, hpending⟩
        · exact hleft
        · rw [hnone] at hpending
          cases hpending
      · exact (h.farewell (Or.inl hexited)).leaving
    · rcases hplace with hfirst | hreceiverWaits
      · have hcall := h.calling hfirst hwaits.not_closing.right.right.left
        rw [hnone] at hcall
        cases hcall
      · rcases h.underWay hwaits hreceiverWaits with
          ⟨pid, hpending⟩ | ⟨signal, pid, hpending⟩
        · rw [hanswers Signal.sigContinue (by decide)] at hpending
          cases hpending
        · rw [hnone] at hpending
          cases hpending

/-- The two parties come to their end after a bounded number of turns, however
often they are interrupted. -/
theorem interrupted_ends {cfg : Config} {happenings : List Happening}
    {s : Interrupted}
    (hlater : AllSteps (happen cfg) (Later cfg) cfg.undisturbed happenings)
    (hrun : run (happen cfg) cfg.undisturbed happenings = some s) :
    total Happening.cost happenings ≤
        80 * cfg.file.length + 21 +
          4 * total Happening.disturbs happenings ∧
      (Stuck cfg s.parties -> Ended s.parties.sender ∧
        Ended s.parties.receiver) := by
  have hguard : AllSteps (happen cfg)
      (fun s happening => Later cfg s happening ∧
        (False -> InOrderTurn s happening)) cfg.undisturbed happenings :=
    hlater.mono (fun _ _ h => ⟨h, fun hfalse => hfalse.elim⟩)
  rcases persisting_run hguard hrun with ⟨m, hpersisting, hbound⟩
  refine ⟨by lia, ?_⟩
  rintro ⟨hsender, hreceiver⟩
  rcases hpersisting with ⟨p, q, r, hp, hq, hholding, _, _⟩
  rw [hp] at hsender ⊢
  rw [hq] at hreceiver ⊢
  exact hholding.all_ended hsender hreceiver

/-- The sender is interrupted at its first bit, while the receiver already
waits for it; the receiver is interrupted as well, too late to matter. -/
def stoppedTurns : List Happening :=
  [Happening.turn Party.sender, Happening.turn Party.receiver,
    Happening.turn Party.receiver, Happening.turn Party.receiver,
    Happening.turn Party.sender, Happening.turn Party.sender,
    Happening.interrupt 0 Party.sender, Happening.turn Party.sender,
    Happening.turn Party.sender, Happening.turn Party.receiver,
    Happening.interrupt 0 Party.receiver, Happening.turn Party.sender]

theorem interrupted_ends_stopped :
    exists s, run (happen (oneByte 0x05)) (oneByte 0x05).undisturbed
        stoppedTurns = some s ∧
      total Happening.cost stoppedTurns ≤ 80 * 1 + 21 + 4 * 2 ∧
      Ended s.parties.sender ∧ Ended s.parties.receiver := by
  have hlater : AllSteps (happen (oneByte 0x05)) (Later (oneByte 0x05))
      (oneByte 0x05).undisturbed stoppedTurns := by
    decide +kernel
  have hrun : exists s,
      run (happen (oneByte 0x05)) (oneByte 0x05).undisturbed stoppedTurns =
        some s ∧ Stuck (oneByte 0x05) s.parties :=
    ⟨_, rfl, trivial, trivial⟩
  rcases hrun with ⟨s, hrun, hstuck⟩
  rcases interrupted_ends hlater hrun with ⟨hbound, hended⟩
  exact ⟨s, hrun, hbound, hended hstuck⟩

/-- As long as no bit is merged or overtaken, what has been written is the
beginning of the file at any time. -/
theorem interrupted_beginning {cfg : Config} {happenings : List Happening}
    {s : Interrupted}
    (hlater : AllSteps (happen cfg) (Later cfg) cfg.undisturbed happenings)
    (horder : AllSteps (happen cfg) InOrderTurn cfg.undisturbed happenings)
    (hrun : run (happen cfg) cfg.undisturbed happenings = some s) :
    s.parties.kernel.written <+: cfg.content := by
  have hguard : AllSteps (happen cfg)
      (fun s happening => Later cfg s happening ∧
        (True -> InOrderTurn s happening)) cfg.undisturbed happenings :=
    (hlater.and horder).mono (fun _ _ h => ⟨h.left, fun _ => h.right⟩)
  rcases persisting_run hguard hrun with ⟨m, hpersisting, _⟩
  rcases hpersisting with ⟨p, q, r, _, _, _, hkept, _⟩
  exact (hkept trivial).beginning

def lateInterrupt : List Happening :=
  (inTurns.take 37).map Happening.turn ++
    [Happening.interrupt 0 Party.receiver, Happening.turn Party.receiver]

theorem interrupted_beginning_late :
    exists s, run (happen (oneByte 0x05)) (oneByte 0x05).undisturbed
        lateInterrupt = some s ∧
      s.parties.kernel.written <+: [0x05] := by
  have hlater : AllSteps (happen (oneByte 0x05)) (Later (oneByte 0x05))
      (oneByte 0x05).undisturbed lateInterrupt := by
    decide +kernel
  have horder : AllSteps (happen (oneByte 0x05)) InOrderTurn
      (oneByte 0x05).undisturbed lateInterrupt := by
    decide +kernel
  have hrun : exists s,
      run (happen (oneByte 0x05)) (oneByte 0x05).undisturbed lateInterrupt =
        some s := ⟨_, rfl⟩
  rcases hrun with ⟨s, hrun⟩
  exact ⟨s, hrun, interrupted_beginning hlater horder hrun⟩

end SignalCopy
end UnixPrograms
