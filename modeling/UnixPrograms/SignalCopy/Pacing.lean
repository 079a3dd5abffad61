import UnixPrograms.SignalCopy.Points

/-!
# The pace of the sender

The sender alone, with the signals it takes one after another.  It goes on to
the next bit behind any signal that does not stop it, whether that signal
acknowledges the bit before or not.
-/

namespace UnixPrograms
namespace SignalCopy

open Foundation

inductive Event where
  | sent (pid : Pid) (signal : Signal)
  | taken (info : SigInfo)
deriving DecidableEq

/-- What a process does that takes these signals, up to the wait for one
more. -/
def history {alpha : Type} : Prog alpha -> List SigInfo -> List Event
  | Program.call (Op.kill pid signal) next, infos =>
      Event.sent pid signal :: history (next ()) infos
  | Program.call (Op.write _) next, infos => history (next ()) infos
  | Program.call (Op.sigwaitinfo _) next, info :: infos =>
      Event.taken info :: history (next info) infos
  | _, _ => []

def acknowledgement (recPid : Pid) : SigInfo where
  signal := Signal.sigContinue
  siPid := recPid

def IsData (signal : Signal) : Prop :=
  signal = Signal.sigGet0 ∨ signal = Signal.sigGet1

instance (signal : Signal) : Decidable (IsData signal) :=
  inferInstanceAs (Decidable (_ ∨ _))

def Guarded (recPid : Pid) (events : List Event) : Prop :=
  forall mid after signal,
    events = mid ++ Event.sent recPid signal :: after -> IsData signal ->
      Event.taken (acknowledgement recPid) ∈ mid

/-- Between any two data signals an acknowledgement is taken. -/
def NeverAhead (recPid : Pid) (events : List Event) : Prop :=
  forall before rest signal,
    events = before ++ Event.sent recPid signal :: rest -> IsData signal ->
      Guarded recPid rest

/-- The signal makes the sender stop; `left` data signals are left to send. -/
def Stops (recPid : Pid) (left : Nat) (info : SigInfo) : Prop :=
  info.siPid = recPid ∧ info.signal = Signal.sigFinish ∨
    info.siPid ≠ recPid ∧ info.signal = Signal.sigStop ∨
    left % byte = 0 ∧ info.signal ≠ Signal.sigContinue

instance (recPid : Pid) (left : Nat) (info : SigInfo) :
    Decidable (Stops recPid left info) :=
  inferInstanceAs (Decidable (_ ∨ _))

/-- As long as data is left, the sender takes acknowledgements of the receiver,
up to a signal that makes it stop. -/
def Acknowledged (recPid : Pid) : Nat -> List SigInfo -> Prop
  | 0, _ => True
  | _ + 1, [] => True
  | left + 1, info :: infos =>
      info = acknowledgement recPid ∧ Acknowledged recPid left infos ∨
        Stops recPid (left + 1) info

instance Acknowledged.decidable (recPid : Pid) :
    (left : Nat) -> (infos : List SigInfo) ->
      Decidable (Acknowledged recPid left infos)
  | 0, _ => isTrue trivial
  | _ + 1, [] => isTrue trivial
  | left + 1, info :: infos =>
      match Acknowledged.decidable recPid left infos with
      | isTrue h =>
          decidable_of_iff
            (info = acknowledgement recPid ∨ Stops recPid (left + 1) info)
            ⟨fun hor => hor.imp (fun heq => ⟨heq, h⟩) id,
              fun hor => hor.imp And.left id⟩
      | isFalse h =>
          decidable_of_iff (Stops recPid (left + 1) info)
            ⟨Or.inr, fun hor => hor.resolve_left (fun hand => h hand.right)⟩

/-!
## Events one by one
-/

section Events

variable {recPid : Pid} {info : SigInfo} {signal : Signal}
  {events : List Event}

theorem guarded_nil (recPid : Pid) : Guarded recPid [] := by
  intro mid after signal heq
  cases mid <;> cases heq

theorem neverAhead_nil (recPid : Pid) : NeverAhead recPid [] := by
  intro before rest signal heq
  cases before <;> cases heq

theorem guarded_taken :
    Guarded recPid (Event.taken info :: events) <->
      info = acknowledgement recPid ∨ Guarded recPid events := by
  constructor
  · intro h
    by_cases hack : info = acknowledgement recPid
    · exact Or.inl hack
    · refine Or.inr ?_
      intro mid after signal heq hdata
      have hmem := h (Event.taken info :: mid) after signal
        (by rw [heq]; rfl) hdata
      rcases List.mem_cons.mp hmem with hfirst | hlater
      · injection hfirst with hfirst
        exact absurd hfirst.symm hack
      · exact hlater
  · intro h mid after signal heq hdata
    cases mid with
    | nil => cases heq
    | cons first mid =>
        injection heq with hfirst heq
        rcases h with hack | hguarded
        · rw [← hfirst, hack]
          exact List.mem_cons_self
        · exact List.mem_cons_of_mem _ (hguarded mid after signal heq hdata)

theorem not_guarded_data (hdata : IsData signal) :
    ¬ Guarded recPid (Event.sent recPid signal :: events) := by
  intro h
  cases h [] events signal rfl hdata

theorem neverAhead_taken :
    NeverAhead recPid (Event.taken info :: events) <->
      NeverAhead recPid events := by
  constructor
  · intro h before rest signal heq
    exact h (Event.taken info :: before) rest signal (by rw [heq]; rfl)
  · intro h before rest signal heq
    cases before with
    | nil => cases heq
    | cons first before =>
        injection heq with _ heq
        exact h before rest signal heq

theorem neverAhead_data (hdata : IsData signal) :
    NeverAhead recPid (Event.sent recPid signal :: events) <->
      Guarded recPid events ∧ NeverAhead recPid events := by
  constructor
  · intro h
    refine ⟨h [] events signal rfl hdata, ?_⟩
    intro before rest signal' heq
    exact h (Event.sent recPid signal :: before) rest signal' (by rw [heq]; rfl)
  · rintro ⟨hguarded, hahead⟩ before rest signal' heq hdata'
    cases before with
    | nil =>
        injection heq with _ heq
        rw [← heq]
        exact hguarded
    | cons first before =>
        injection heq with _ heq
        exact hahead before rest signal' heq hdata'

theorem neverAhead_other (hother : ¬ IsData signal) :
    NeverAhead recPid (Event.sent recPid signal :: events) <->
      NeverAhead recPid events := by
  constructor
  · intro h before rest signal' heq
    exact h (Event.sent recPid signal :: before) rest signal' (by rw [heq]; rfl)
  · intro h before rest signal' heq hdata
    cases before with
    | nil =>
        injection heq with hfirst _
        injection hfirst with _ hsignal
        rw [← hsignal] at hdata
        exact absurd hdata hother
    | cons first before =>
        injection heq with _ heq
        exact h before rest signal' heq hdata

theorem kept_of_no_data
    (h : forall pid signal, Event.sent pid signal ∈ events ->
      ¬ IsData signal) :
    Guarded recPid events ∧ NeverAhead recPid events := by
  constructor
  · intro mid after signal heq hdata
    refine absurd hdata (h recPid signal ?_)
    rw [heq]
    exact List.mem_append_right _ List.mem_cons_self
  · intro before rest signal heq hdata
    refine absurd hdata (h recPid signal ?_)
    rw [heq]
    exact List.mem_append_right _ List.mem_cons_self

end Events

/-!
## The sender's code

Behind a data signal the sender waits.  Any signal but the ones that make it stop
lets it send the next data signal, whoever it is from.
-/

section Sender

variable {recPid : Pid}

def bitSignal (bit : Nat) : Signal :=
  if bit = 0 then Signal.sigGet0 else Signal.sigGet1

theorem isData_bitSignal (bit : Nat) : IsData (bitSignal bit) := by
  unfold bitSignal
  split
  · exact Or.inl rfl
  · exact Or.inr rfl

def waitCode (recPid : Pid) (arr : List Nat) (file : List (UInt8 × UInt32)) :
    Prog Unit :=
  Program.call (Op.sigwaitinfo senderSigset)
    (fun info => sendBitesAnswer recPid arr info >>= sendFile recPid file)

theorem sendBites_cons (bit : Nat) (arr : List Nat)
    (file : List (UInt8 × UInt32)) (signal : Signal) :
    (sendBites recPid (bit :: arr) signal >>= sendFile recPid file) =
      Program.call (Op.kill recPid (bitSignal bit))
        (fun _ => waitCode recPid arr file) := rfl

theorem history_byteEnd (file : List (UInt8 × UInt32)) {signal : Signal}
    (hsignal : signal ≠ Signal.sigContinue) (infos : List SigInfo) :
    history (sendBites recPid [] signal >>= sendFile recPid file) infos =
      [Event.sent recPid Signal.sigFinish] := by
  cases file with
  | nil => rfl
  | cons entry file =>
      change history
        (if signal = Signal.sigContinue then _
          else Program.ask (Op.kill recPid Signal.sigFinish)) infos = _
      rw [if_neg hsignal]
      rfl

theorem history_goOn (arr : List Nat) (file : List (UInt8 × UInt32))
    {signal : Signal} (hsignal : arr = [] -> signal = Signal.sigContinue)
    (hshort : arr.length < 8) (hleft : 0 < arr.length + 8 * file.length)
    (infos : List SigInfo) :
    exists bit arr' file', arr'.length < 8 ∧
      arr'.length + 8 * file'.length + 1 = arr.length + 8 * file.length ∧
      history (sendBites recPid arr signal >>= sendFile recPid file) infos =
        Event.sent recPid (bitSignal bit) ::
          history (waitCode recPid arr' file') infos := by
  cases arr with
  | cons bit arr =>
      rw [List.length_cons] at hshort ⊢
      exact ⟨bit, arr, file, by lia, by lia, rfl⟩
  | nil =>
      cases file with
      | nil => cases hleft
      | cons entry file =>
          rw [hsignal rfl]
          have hseven : (getBitesLoop 7
              (symbolMemory entry.1 entry.2 >>> 1)).length = 7 := by
            rw [getBitesLoop_eq, bitsOf_length]
          refine ⟨_, getBitesLoop 7 (symbolMemory entry.1 entry.2 >>> 1), file,
            by lia, ?_, rfl⟩
          rw [hseven, List.length_cons, List.length_nil]
          lia

theorem answer_eq (arr : List Nat) (info : SigInfo) :
    sendBitesAnswer recPid arr info =
      if info.siPid = recPid ∧ info.signal = Signal.sigFinish then
        Program.ret Signal.sigFinish
      else if info.siPid ≠ recPid ∧ info.signal = Signal.sigStop then
        Program.call (Op.kill recPid Signal.sigStop)
          (fun _ => Program.ret Signal.sigStop)
      else sendBites recPid arr info.signal := by
  rcases info with ⟨signal, siPid⟩
  by_cases hpid : siPid = recPid
  · cases signal <;> simp [sendBitesAnswer, hpid]
  · cases signal <;> simp [sendBitesAnswer, hpid, Program.ask]

theorem history_stop {arr : List Nat} {file : List (UInt8 × UInt32)}
    {info : SigInfo} (hshort : arr.length < 8)
    (hstops : arr.length + 8 * file.length = 0 ∨
      Stops recPid (arr.length + 8 * file.length) info)
    (infos : List SigInfo) :
    history (sendBitesAnswer recPid arr info >>= sendFile recPid file) infos =
        [Event.sent recPid Signal.sigFinish] ∨
      history (sendBitesAnswer recPid arr info >>= sendFile recPid file) infos =
        [Event.sent recPid Signal.sigStop,
          Event.sent recPid Signal.sigFinish] := by
  rw [answer_eq, Program.ite_bind, Program.ite_bind]
  split
  · exact Or.inl (history_byteEnd file (by decide) infos)
  · rename_i hfinish
    split
    · refine Or.inr ?_
      rw [Program.call_bind, history]
      congr 1
      exact history_byteEnd file (by decide) infos
    · rename_i hstop
      rcases hstops with hover | hfinish' | hstop' | ⟨hlast, hsignal⟩
      · have hnil : arr = [] := by
          rw [← List.length_eq_zero_iff]
          lia
        have hnone : file = [] := by
          rw [← List.length_eq_zero_iff]
          lia
        rw [hnil, hnone]
        exact Or.inl rfl
      · exact absurd hfinish' hfinish
      · exact absurd hstop' hstop
      · have hnil : arr = [] := by
          rw [← List.length_eq_zero_iff]
          unfold byte at hlast
          lia
        rw [hnil]
        exact Or.inl (history_byteEnd file hsignal infos)

theorem history_go {arr : List Nat} {file : List (UInt8 × UInt32)}
    {info : SigInfo}
    (hshort : arr.length < 8)
    (hgo : ¬ Stops recPid (arr.length + 8 * file.length) info)
    (hleft : 0 < arr.length + 8 * file.length) (infos : List SigInfo) :
    exists bit arr' file', arr'.length < 8 ∧
      arr'.length + 8 * file'.length + 1 = arr.length + 8 * file.length ∧
      history (sendBitesAnswer recPid arr info >>= sendFile recPid file) infos =
        Event.sent recPid (bitSignal bit) ::
          history (waitCode recPid arr' file') infos := by
  rw [answer_eq, if_neg (fun h => hgo (Or.inl h)),
    if_neg (fun h => hgo (Or.inr (Or.inl h)))]
  apply history_goOn arr file ?_ hshort hleft
  intro hnil
  by_contra hsignal
  refine hgo (Or.inr (Or.inr ⟨?_, hsignal⟩))
  rw [hnil, List.length_nil, Nat.zero_add]
  exact Nat.mul_mod_right 8 _

theorem acknowledged_iff {arr : List Nat} {file : List (UInt8 × UInt32)}
    (hshort : arr.length < 8) (infos : List SigInfo) :
    Guarded recPid (history (waitCode recPid arr file) infos) ∧
        NeverAhead recPid (history (waitCode recPid arr file) infos) <->
      Acknowledged recPid (arr.length + 8 * file.length) infos := by
  induction infos generalizing arr file with
  | nil =>
      have hnone : Acknowledged recPid (arr.length + 8 * file.length) [] := by
        cases arr.length + 8 * file.length <;> trivial
      exact iff_of_true ⟨guarded_nil recPid, neverAhead_nil recPid⟩ hnone
  | cons info infos ih =>
      have hstep : history (waitCode recPid arr file) (info :: infos) =
          Event.taken info ::
            history (sendBitesAnswer recPid arr info >>= sendFile recPid file)
              infos := rfl
      rw [hstep, guarded_taken, neverAhead_taken]
      by_cases hstops : arr.length + 8 * file.length = 0 ∨
          Stops recPid (arr.length + 8 * file.length) info
      · -- no data follows
        have hquiet := @kept_of_no_data recPid
          (history (sendBitesAnswer recPid arr info >>= sendFile recPid file)
            infos) (by
              intro pid signal hmem
              rcases history_stop hshort hstops infos with heq | heq
              · rw [heq] at hmem
                simp only [List.mem_singleton, Event.sent.injEq] at hmem
                rw [hmem.right]
                decide
              · rw [heq] at hmem
                simp only [List.mem_cons, List.not_mem_nil, or_false,
                  Event.sent.injEq] at hmem
                rcases hmem with ⟨_, hsignal⟩ | ⟨_, hsignal⟩ <;>
                  rw [hsignal] <;> decide)
        have hright : Acknowledged recPid (arr.length + 8 * file.length)
            (info :: infos) := by
          rcases hstops with hover | hstops
          · rw [hover]
            trivial
          · cases hleft : arr.length + 8 * file.length with
            | zero => trivial
            | succ left =>
                rw [hleft] at hstops
                exact Or.inr hstops
        exact iff_of_true ⟨Or.inr hquiet.left, hquiet.right⟩ hright
      · -- the next data signal follows
        rw [not_or] at hstops
        rcases history_go hshort hstops.right
          (Nat.pos_of_ne_zero hstops.left) infos with
          ⟨bit, arr', file', hshort', hleft, heq⟩
        have hdata := isData_bitSignal bit
        rw [heq, neverAhead_data hdata, ← hleft, Acknowledged, ih hshort']
        constructor
        · rintro ⟨hack | hguarded, hrest⟩
          · exact Or.inl ⟨hack, hrest⟩
          · exact absurd hguarded (not_guarded_data hdata)
        · rintro (⟨hack, hrest⟩ | hcontra)
          · exact ⟨Or.inl hack, hrest⟩
          · rw [hleft] at hcontra
            exact absurd hcontra hstops.right

def StaysBehind (recPid : Pid) (file : List (UInt8 × UInt32)) :
    List SigInfo -> Prop
  | [] => True
  | start :: infos =>
      start.signal = Signal.sigContinue ->
        Acknowledged recPid (8 * file.length - 1) infos

theorem neverAhead_sendFile {file : List (UInt8 × UInt32)} {signal : Signal}
    (infos : List SigInfo) :
    NeverAhead recPid (history (sendFile recPid file signal) infos) <->
      (signal = Signal.sigContinue ->
        Acknowledged recPid (8 * file.length - 1) infos) := by
  have hcode : sendFile recPid file signal =
      (sendBites recPid [] signal >>= sendFile recPid file) := rfl
  have hend : NeverAhead recPid [Event.sent recPid Signal.sigFinish] :=
    (neverAhead_other (by decide)).mpr (neverAhead_nil recPid)
  rw [hcode]
  by_cases hsignal : signal = Signal.sigContinue
  · rw [hsignal]
    cases hlength : file.length with
    | zero =>
        rw [List.length_eq_zero_iff] at hlength
        rw [hlength]
        exact iff_of_true hend (fun _ => trivial)
    | succ n =>
        rcases @history_goOn recPid [] file Signal.sigContinue (fun _ => rfl)
          (by decide) (by rw [hlength]; lia) infos with
          ⟨bit, arr', file', hshort, hleft, heq⟩
        have hcount : 8 * (n + 1) - 1 = arr'.length + 8 * file'.length := by
          rw [hlength, List.length_nil] at hleft
          lia
        rw [heq, neverAhead_data (isData_bitSignal bit),
          acknowledged_iff hshort, hcount]
        exact ⟨fun h _ => h, fun h => h rfl⟩
  · rw [history_byteEnd file hsignal]
    exact iff_of_true hend (fun h => absurd h hsignal)

/-- Between any two data signals the sender takes an acknowledgement exactly if
no other signal lets it go on while data is left. -/
theorem never_ahead_iff (myPid recPid : Pid) (file : List (UInt8 × UInt32))
    (infos : List SigInfo) :
    NeverAhead recPid (history (senderMain myPid recPid file) infos) <->
      StaysBehind recPid file infos := by
  have hcode : history (senderMain myPid recPid file) infos =
      Event.sent recPid Signal.sigContinue ::
        history (senderConnected myPid recPid file) infos := rfl
  rw [hcode, neverAhead_other (by decide)]
  cases infos with
  | nil => exact iff_of_true (neverAhead_nil recPid) trivial
  | cons start infos =>
      have hfirst : history (senderConnected myPid recPid file)
          (start :: infos) =
          Event.taken start ::
            history
              (if start.signal = Signal.sigFinish then
                Program.halt { code := myPid }
              else sendFile recPid file start.signal) infos := rfl
      rw [hfirst, neverAhead_taken]
      by_cases hbusy : start.signal = Signal.sigFinish
      · rw [if_pos hbusy]
        refine iff_of_true (neverAhead_nil recPid) ?_
        intro hstart
        rw [hbusy] at hstart
        cases hstart
      · rw [if_neg hbusy]
        exact neverAhead_sendFile infos

/-- Another process's `SIG_CONTINUE` behind the first bit makes the sender send
the second one. -/
theorem stranger_lets_go_on :
    ¬ NeverAhead 2 (history (senderMain 1 2 [(65, 0)])
      [acknowledgement 2,
        { signal := Signal.sigContinue
          siPid := 3 }]) := by
  intro h
  have hmem := h
    [Event.sent 2 Signal.sigContinue, Event.taken (acknowledgement 2)]
    [Event.taken
        { signal := Signal.sigContinue
          siPid := 3 },
      Event.sent 2 Signal.sigGet0]
    Signal.sigGet1 rfl (Or.inr rfl)
    [Event.taken
        { signal := Signal.sigContinue
          siPid := 3 }]
    [] Signal.sigGet0 rfl (Or.inl rfl)
  revert hmem
  decide

end Sender

end SignalCopy
end UnixPrograms
