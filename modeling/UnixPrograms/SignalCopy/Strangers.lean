import UnixPrograms.SignalCopy.Code
import Mathlib.Data.List.Infix

/-!
# Signals of strangers

The receiver alone, with the signals it consumes one after another.  A signal
of a stranger leaves the bits alone, but the loop acknowledges it at its top
like one of the sender's.
-/

namespace UnixPrograms
namespace SignalCopy

open Foundation

/-- The `kill`s and `write`s up to the next wait, and what is left to do
there. -/
def drain {alpha : Type} : Prog alpha -> List Op × Prog alpha
  | Program.call (Op.kill pid signal) next =>
      (Op.kill pid signal :: (drain (next ())).1, (drain (next ())).2)
  | Program.call (Op.write sym) next =>
      (Op.write sym :: (drain (next ())).1, (drain (next ())).2)
  | code => ([], code)

def settle (myPid : Pid) (code : Prog Receiver) : List Op × Prog Receiver :=
  let first := drain code
  let second := drain (receiverLoop myPid first.2)
  (first.1 ++ second.1, second.2)

/-- All `kill`s and `write`s of a receiver that consumes these signals; after
the loop no signal is consumed. -/
def outputs (myPid : Pid) : List SigInfo -> Prog Receiver -> List Op
  | [], code => (settle myPid code).1
  | info :: infos, code =>
      (settle myPid code).1 ++
        match (settle myPid code).2 with
        | Program.call (Op.sigwaitinfo _) next =>
            outputs myPid infos (next info)
        | _ => []

def writtenBytes (ops : List Op) : Bytes :=
  ops.filterMap
    (fun op =>
      match op with
      | Op.write sym => some sym
      | _ => none)

def sentTo (pid : Pid) (ops : List Op) : List Signal :=
  ops.filterMap
    (fun op =>
      match op with
      | Op.kill target signal => if target = pid then some signal else none
      | _ => none)

/-- A signal other than `SIG_STOP` that is neither the sender's nor the
receiver's own. -/
def Stranger (senPid myPid : Pid) (info : SigInfo) : Prop :=
  info.signal ≠ Signal.sigStop ∧ info.siPid ≠ senPid ∧ info.siPid ≠ myPid

instance (senPid myPid : Pid) (info : SigInfo) :
    Decidable (Stranger senPid myPid info) := by
  unfold Stranger
  infer_instance

def known (senPid myPid : Pid) (infos : List SigInfo) : List SigInfo :=
  infos.filter (fun info => !decide (Stranger senPid myPid info))

def EndsLoop (senPid : Pid) (info : SigInfo) : Prop :=
  info.signal = Signal.sigStop ∨
    info.siPid = senPid ∧ info.signal = Signal.sigFinish

instance (senPid : Pid) (info : SigInfo) : Decidable (EndsLoop senPid info) := by
  unfold EndsLoop
  infer_instance

/-- How many signals of strangers come before the signal that ends the loop. -/
def strangersHeard (senPid myPid : Pid) (infos : List SigInfo) : Nat :=
  (infos.takeWhile (fun info => !decide (EndsLoop senPid info))).countP
    (fun info => decide (Stranger senPid myPid info))

/-!
## One round of the loop
-/

def answerTo (myPid : Pid) (r : Receiver) (info : SigInfo) : List Op :=
  if r.senPid = info.siPid then
    if (r.switch info.signal).arrLen = 8 then
      [Op.write (UInt8.ofNat (r.switch info.signal).num)]
    else []
  else if info.signal = Signal.sigStop then
    [Op.kill r.senPid Signal.sigFinish]
  else if info.siPid ≠ myPid then
    [Op.kill info.siPid Signal.sigFinish]
  else []

def Receiver.after (r : Receiver) (info : SigInfo) : Receiver :=
  if r.senPid = info.siPid then
    if (r.switch info.signal).arrLen = 8 then
      { r.switch info.signal with arrLen := 0 }
    else r.switch info.signal
  else if info.signal = Signal.sigStop then
    { r with flag := false }
  else r

def receiverAnswer (myPid : Pid) (r : Receiver) (info : SigInfo) :
    Prog Receiver :=
  if r.senPid = info.siPid then
    if (r.switch info.signal).arrLen = 8 then
      writeSymbol (r.switch info.signal)
    else Program.ret (r.switch info.signal)
  else if info.signal = Signal.sigStop then do
    Program.ask (Op.kill r.senPid Signal.sigFinish)
    return { r with flag := false }
  else if info.siPid ≠ myPid then do
    Program.ask (Op.kill info.siPid Signal.sigFinish)
    return r
  else Program.ret r

theorem receiverWait_eq (myPid : Pid) (r : Receiver) :
    receiverWait myPid r =
      Program.call (Op.sigwaitinfo receiverSigset) (receiverAnswer myPid r) :=
  rfl

theorem settle_wait (myPid : Pid) (r : Receiver) :
    settle myPid (receiverWait myPid r) = ([], receiverWait myPid r) := rfl

theorem settle_round {myPid : Pid} {r : Receiver} {ops : List Op}
    {code : Prog Receiver} (h : drain code = (ops, Program.ret r)) :
    settle myPid code =
      if r.flag = true then
        (ops ++ [Op.kill r.senPid Signal.sigContinue], receiverWait myPid r)
      else (ops, Program.ret r) := by
  rw [settle, h]
  split
  · rename_i hflag
    simp only [receiverLoop, Program.again, if_pos hflag]
    rfl
  · rename_i hflag
    simp only [receiverLoop, Program.again, if_neg hflag]
    change (ops ++ [], Program.ret r) = _
    rw [List.append_nil]

theorem drain_answer (myPid : Pid) (r : Receiver) (info : SigInfo) :
    drain (receiverAnswer myPid r info) =
      (answerTo myPid r info, Program.ret (r.after info)) := by
  unfold receiverAnswer answerTo Receiver.after
  split
  · split
    · rfl
    · rfl
  · split
    · rfl
    · split
      · rfl
      · rfl

theorem outputs_cons (myPid : Pid) (r : Receiver) (info : SigInfo)
    (infos : List SigInfo) :
    outputs myPid (info :: infos) (receiverWait myPid r) =
      answerTo myPid r info ++
        if (r.after info).flag = true then
          Op.kill (r.after info).senPid Signal.sigContinue ::
            outputs myPid infos (receiverWait myPid (r.after info))
        else [] := by
  have hnext : outputs myPid (info :: infos) (receiverWait myPid r) =
      outputs myPid infos (receiverAnswer myPid r info) := rfl
  have hround := @settle_round myPid _ _ _ (drain_answer myPid r info)
  rw [hnext]
  by_cases hflag : (r.after info).flag = true
  · rw [if_pos hflag] at hround ⊢
    cases infos with
    | nil =>
        rw [outputs, hround, outputs, settle_wait]
    | cons info' infos =>
        rw [outputs, hround, outputs, settle_wait, receiverWait_eq,
          List.append_assoc]
        rfl
  · rw [if_neg hflag] at hround ⊢
    cases infos with
    | nil => rw [outputs, hround, List.append_nil]
    | cons info' infos => rw [outputs, hround]

/-!
## Known signals and strangers
-/

@[simp] theorem writtenBytes_append (first second : List Op) :
    writtenBytes (first ++ second) =
      writtenBytes first ++ writtenBytes second :=
  List.filterMap_append

@[simp] theorem writtenBytes_kill (pid : Pid) (signal : Signal)
    (ops : List Op) :
    writtenBytes (Op.kill pid signal :: ops) = writtenBytes ops := rfl

@[simp] theorem sentTo_append (pid : Pid) (first second : List Op) :
    sentTo pid (first ++ second) = sentTo pid first ++ sentTo pid second :=
  List.filterMap_append

theorem sentTo_kill (pid target : Pid) (signal : Signal) (ops : List Op) :
    sentTo pid (Op.kill target signal :: ops) =
      if target = pid then signal :: sentTo pid ops else sentTo pid ops := by
  by_cases h : target = pid
  · rw [if_pos h]
    simp [sentTo, h]
  · rw [if_neg h]
    simp [sentTo, h]

theorem after_senPid (r : Receiver) (info : SigInfo) :
    (r.after info).senPid = r.senPid := by
  have hswitch : (r.switch info.signal).senPid = r.senPid := by
    cases info.signal <;> rfl
  unfold Receiver.after
  split
  · split
    · exact hswitch
    · exact hswitch
  · split
    · rfl
    · rfl

theorem after_flag {r : Receiver} (hflag : r.flag = true) (info : SigInfo) :
    (r.after info).flag = true <-> ¬ EndsLoop r.senPid info := by
  unfold Receiver.after EndsLoop
  split
  · rename_i hsender
    have hswitch : (r.switch info.signal).flag = true <->
        ¬ (info.signal = Signal.sigStop ∨
          info.siPid = r.senPid ∧ info.signal = Signal.sigFinish) := by
      cases info.signal with
      | sigStop => simp [Receiver.switch]
      | sigGet0 => simp [Receiver.switch, Receiver.get0, hflag]
      | sigGet1 => simp [Receiver.switch, Receiver.get1, hflag]
      | sigContinue => simp [Receiver.switch, hflag]
      | sigFinish => simp [Receiver.switch, Receiver.finish, hsender]
    split
    · exact hswitch
    · exact hswitch
  · rename_i hother
    split
    · rename_i hstop
      simp [hstop]
    · rename_i hgo
      simp [hflag, hgo, Ne.symm hother]

theorem stranger_answer {myPid : Pid} {r : Receiver} {info : SigInfo}
    (h : Stranger r.senPid myPid info) :
    r.after info = r ∧
      answerTo myPid r info = [Op.kill info.siPid Signal.sigFinish] := by
  rcases h with ⟨hgo, hsender, hown⟩
  unfold Receiver.after answerTo
  rw [if_neg (Ne.symm hsender), if_neg hgo, if_neg (Ne.symm hsender),
    if_neg hgo, if_pos hown]
  exact ⟨rfl, rfl⟩

theorem known_stranger {senPid myPid : Pid} {info : SigInfo}
    {infos : List SigInfo} (h : Stranger senPid myPid info) :
    known senPid myPid (info :: infos) = known senPid myPid infos :=
  List.filter_cons_of_neg (by simp [h])

theorem known_cons {senPid myPid : Pid} {info : SigInfo} {infos : List SigInfo}
    (h : ¬ Stranger senPid myPid info) :
    known senPid myPid (info :: infos) = info :: known senPid myPid infos :=
  List.filter_cons_of_pos (by simp [h])

theorem not_endsLoop_of_stranger {senPid myPid : Pid} {info : SigInfo}
    (h : Stranger senPid myPid info) : ¬ EndsLoop senPid info := by
  rintro (hstop | ⟨hsender, _⟩)
  · exact h.left hstop
  · exact h.right.left hsender

theorem strangersHeard_stranger {senPid myPid : Pid} {info : SigInfo}
    {infos : List SigInfo} (h : Stranger senPid myPid info) :
    strangersHeard senPid myPid (info :: infos) =
      strangersHeard senPid myPid infos + 1 := by
  have hgo := not_endsLoop_of_stranger h
  simp [strangersHeard, hgo, h]

theorem strangersHeard_known {senPid myPid : Pid} {info : SigInfo}
    {infos : List SigInfo} (h : ¬ Stranger senPid myPid info) :
    strangersHeard senPid myPid (info :: infos) =
      if EndsLoop senPid info then 0 else strangersHeard senPid myPid infos := by
  by_cases hends : EndsLoop senPid info
  · simp [strangersHeard, hends]
  · simp [strangersHeard, hends, h]

/-!
## Two runs
-/

theorem writtenBytes_known (myPid : Pid) (infos : List SigInfo)
    {r : Receiver} (hflag : r.flag = true) :
    writtenBytes (outputs myPid infos (receiverWait myPid r)) =
      writtenBytes
        (outputs myPid (known r.senPid myPid infos) (receiverWait myPid r)) := by
  induction infos generalizing r with
  | nil => rfl
  | cons info infos ih =>
      by_cases hstranger : Stranger r.senPid myPid info
      · rcases stranger_answer hstranger with ⟨hafter, hanswer⟩
        rw [known_stranger hstranger, outputs_cons, hafter, hanswer,
          if_pos hflag, ← ih hflag]
        rfl
      · rw [known_cons hstranger, outputs_cons, outputs_cons]
        by_cases hnext : (r.after info).flag = true
        · have hrest := ih hnext
          rw [after_senPid] at hrest
          simp only [if_pos hnext, writtenBytes_append, writtenBytes_kill,
            hrest]
        · rw [if_neg hnext, if_neg hnext]

theorem known_answer {myPid : Pid} {r : Receiver} {info : SigInfo}
    (hknown : ¬ Stranger r.senPid myPid info) (hgo : ¬ EndsLoop r.senPid info) :
    sentTo r.senPid (answerTo myPid r info) = [] := by
  unfold answerTo
  split
  · split
    · rfl
    · rfl
  · rename_i hother
    have hsignal : info.signal ≠ Signal.sigStop :=
      fun hstop => hgo (Or.inl hstop)
    rw [if_neg hsignal]
    split
    · rename_i hown
      exact absurd ⟨hsignal, Ne.symm hother, hown⟩ hknown
    · rfl

theorem sentTo_known (myPid : Pid) (infos : List SigInfo) {r : Receiver}
    (hflag : r.flag = true) :
    sentTo r.senPid (outputs myPid infos (receiverWait myPid r)) =
      List.replicate (strangersHeard r.senPid myPid infos) Signal.sigContinue ++
        sentTo r.senPid
          (outputs myPid (known r.senPid myPid infos)
            (receiverWait myPid r)) := by
  induction infos generalizing r with
  | nil => rfl
  | cons info infos ih =>
      by_cases hstranger : Stranger r.senPid myPid info
      · rcases stranger_answer hstranger with ⟨hafter, hanswer⟩
        rw [known_stranger hstranger, outputs_cons, hafter, hanswer,
          if_pos hflag, sentTo_append, sentTo_kill,
          if_neg hstranger.right.left, sentTo_kill, if_pos rfl, ih hflag,
          strangersHeard_stranger hstranger, List.replicate_succ]
        rfl
      · rw [known_cons hstranger, outputs_cons, outputs_cons,
          strangersHeard_known hstranger]
        by_cases hnext : (r.after info).flag = true
        · have hrest := ih hnext
          have hgo := (after_flag hflag info).mp hnext
          rw [after_senPid] at hrest ⊢
          rw [if_pos hnext, if_pos hnext, if_neg hgo, sentTo_append,
            sentTo_append, sentTo_kill, if_pos rfl, sentTo_kill, if_pos rfl,
            hrest, known_answer hstranger hgo, List.nil_append,
            List.nil_append, ← List.cons_append, ← List.replicate_succ,
            List.replicate_succ', List.append_assoc]
          rfl
        · have hends : EndsLoop r.senPid info := by
            by_contra hgo
            exact hnext ((after_flag hflag info).mpr hgo)
          rw [if_neg hnext, if_neg hnext, if_pos hends]
          rfl

theorem outputs_body (myPid : Pid) (infos : List SigInfo) (r : Receiver) :
    outputs myPid infos (receiverBody myPid r) =
      Op.kill r.senPid Signal.sigContinue ::
        outputs myPid infos (receiverWait myPid r) := by
  cases infos with
  | nil => rfl
  | cons info infos => rfl

def InLoop (myPid : Pid) (r : Receiver) (code : Prog Receiver) : Prop :=
  r.flag = true ∧ (code = receiverBody myPid r ∨ code = receiverWait myPid r)

/-- Two runs that differ in the signals of strangers write the same bytes, and
send the sender the same signals exactly if equally many strangers are heard
in both. -/
theorem strangers_disturb {myPid : Pid} {r : Receiver} {code : Prog Receiver}
    (hcode : InLoop myPid r code) {infos infos' : List SigInfo}
    (hknown : known r.senPid myPid infos = known r.senPid myPid infos') :
    writtenBytes (outputs myPid infos code) =
        writtenBytes (outputs myPid infos' code) ∧
      sentTo r.senPid (outputs myPid infos code) =
        sentTo r.senPid (outputs myPid infos' code) <->
    strangersHeard r.senPid myPid infos =
      strangersHeard r.senPid myPid infos' := by
  rcases hcode with ⟨hflag, hcode⟩
  have hbytes : writtenBytes (outputs myPid infos (receiverWait myPid r)) =
      writtenBytes (outputs myPid infos' (receiverWait myPid r)) := by
    rw [writtenBytes_known myPid infos hflag,
      writtenBytes_known myPid infos' hflag, hknown]
  have hsent : sentTo r.senPid (outputs myPid infos (receiverWait myPid r)) =
        sentTo r.senPid (outputs myPid infos' (receiverWait myPid r)) <->
      strangersHeard r.senPid myPid infos =
        strangersHeard r.senPid myPid infos' := by
    rw [sentTo_known myPid infos hflag, sentTo_known myPid infos' hflag,
      hknown, List.append_left_inj]
    exact List.replicate_left_inj
  rcases hcode with htop | hwait
  · rw [htop, outputs_body, outputs_body, writtenBytes_kill, writtenBytes_kill,
      sentTo_kill, if_pos rfl, sentTo_kill, if_pos rfl,
      List.cons_inj_right]
    exact ⟨fun h => hsent.mp h.right, fun h => ⟨hbytes, hsent.mpr h⟩⟩
  · rw [hwait]
    exact ⟨fun h => hsent.mp h.right, fun h => ⟨hbytes, hsent.mpr h⟩⟩

def firstWait : Receiver where
  senPid := 1
  arr := fun _ => 0
  arrLen := 0
  flag := true

theorem strangers_disturb_once :
    sentTo 1 (outputs 2
        [{ signal := Signal.sigContinue, siPid := 3 },
          { signal := Signal.sigGet0, siPid := 1 }]
        (receiverBody 2 firstWait)) =
      sentTo 1 (outputs 2
        [{ signal := Signal.sigGet0, siPid := 1 },
          { signal := Signal.sigFinish, siPid := 4 }]
        (receiverBody 2 firstWait)) := by
  have hloop : InLoop 2 firstWait (receiverBody 2 firstWait) :=
    ⟨rfl, Or.inl rfl⟩
  have hknown : known firstWait.senPid 2
      [{ signal := Signal.sigContinue, siPid := 3 },
        { signal := Signal.sigGet0, siPid := 1 }] =
      known firstWait.senPid 2
        [{ signal := Signal.sigGet0, siPid := 1 },
          { signal := Signal.sigFinish, siPid := 4 }] := by
    decide
  exact ((strangers_disturb hloop hknown).mpr (by decide)).right

/-- A stranger is answered by an acknowledgement to the sender as well. -/
theorem stranger_acknowledged :
    InLoop 2 firstWait (receiverBody 2 firstWait) ∧
      known 1 2 [{ signal := Signal.sigContinue, siPid := 3 }] =
        known 1 2 [] ∧
      sentTo 1 (outputs 2 [] (receiverBody 2 firstWait)) =
        [Signal.sigContinue] ∧
      sentTo 1 (outputs 2 [{ signal := Signal.sigContinue, siPid := 3 }]
          (receiverBody 2 firstWait)) =
        [Signal.sigContinue, Signal.sigContinue] :=
  ⟨⟨rfl, Or.inl rfl⟩, by decide, rfl, rfl⟩

end SignalCopy
end UnixPrograms
