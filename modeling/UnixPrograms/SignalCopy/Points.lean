import UnixPrograms.SignalCopy.Code
import UnixPrograms.Foundation.Transition

/-!
# One sender and one receiver

The two processes in any interleaving of their steps, and the points of their
code: what a process has still to do is named here at each point, so that the
proofs about whole runs follow the points.
-/

namespace UnixPrograms
namespace SignalCopy

open Foundation

/-- The two processes, the sender's file with the memory behind `symbol` at
each of its bytes, and the receiver's array before it is filled. -/
structure Config where
  senPid : Pid
  recPid : Pid
  distinct : senPid ≠ recPid
  file : List (UInt8 × UInt32)
  arr : Nat -> Nat

def Config.content (cfg : Config) : Bytes :=
  cfg.file.map Prod.fst

structure State where
  kernel : Kernel
  sender : Prog Unit
  receiver : Prog Receiver

def Config.start (cfg : Config) : State where
  kernel := { pending := fun _ _ => none, written := [] }
  sender := senderMain cfg.senPid cfg.recPid cfg.file
  receiver := receiverStart cfg.arr

inductive Party where
  | sender
  | receiver
deriving DecidableEq

/-- One `kill`, one `sigwaitinfo` or one `write` of a party. -/
def step (cfg : Config) (s : State) : Party -> Option State
  | Party.sender =>
      (Program.step (Kernel.exec lowest cfg.senPid) s.sender s.kernel).map
        (fun after => { s with sender := after.1, kernel := after.2 })
  | Party.receiver =>
      (Program.step (Kernel.exec lowest cfg.recPid) s.receiver s.kernel).map
        (fun after =>
          { s with
            receiver := receiverLoop cfg.recPid after.1
            kernel := after.2 })

def Ended {alpha : Type} (code : Prog alpha) : Prop :=
  code.nextOp = none

theorem step_sender {cfg : Config} {s s' : State} {op : Op}
    {next : op.Res -> Prog Unit} (hcode : s.sender = Program.call op next)
    (hstep : step cfg s Party.sender = some s') :
    exists answer k, s.kernel.exec lowest cfg.senPid op = some (answer, k) ∧
      s' = { s with sender := next answer, kernel := k } := by
  rcases Option.map_eq_some_iff.mp hstep with ⟨⟨code, k⟩, hexec, heq⟩
  rw [hcode] at hexec
  rcases Program.step_call_eq_some hexec with ⟨answer, hanswer, hnext⟩
  exact ⟨answer, k, hanswer, by rw [← heq, hnext]⟩

theorem step_receiver {cfg : Config} {s s' : State} {op : Op}
    {next : op.Res -> Prog Receiver}
    (hcode : s.receiver = Program.call op next)
    (hstep : step cfg s Party.receiver = some s') :
    exists answer k, s.kernel.exec lowest cfg.recPid op = some (answer, k) ∧
      s' =
        { s with
          receiver := receiverLoop cfg.recPid (next answer)
          kernel := k } := by
  rcases Option.map_eq_some_iff.mp hstep with ⟨⟨code, k⟩, hexec, heq⟩
  rw [hcode] at hexec
  rcases Program.step_call_eq_some hexec with ⟨answer, hanswer, hnext⟩
  exact ⟨answer, k, hanswer, by rw [← heq, hnext]⟩

/-!
## The bits of a file
-/

theorem getBitesLoop_eq (count : Nat) (num : UInt32) :
    getBitesLoop count num = bitsOf count num.toNat := by
  induction count generalizing num with
  | zero => rfl
  | succ count ih =>
      rw [getBitesLoop, bitsOf, ih, UInt32.toNat_and, UInt32.toNat_shiftRight]
      congr 1
      exact Nat.and_one_is_mod num.toNat

theorem getBites_symbolMemory (symbol : UInt8) (behind : UInt32) :
    getBites (symbolMemory symbol behind) = bitsOf 8 symbol.toNat := by
  rw [getBites, getBitesLoop_eq, byte]
  apply bitsOf_congr
  rw [symbolMemory, UInt32.toNat_add, UInt32.toNat_mul, UInt8.toNat_toUInt32]
  change (symbol.toNat + behind.toNat * 256 % 2 ^ 32) % 2 ^ 32 % 2 ^ 8 = _
  lia

def fileBits (file : List (UInt8 × UInt32)) : List Nat :=
  file.flatMap (fun entry => getBites (symbolMemory entry.1 entry.2))

theorem fileBits_eq (file : List (UInt8 × UInt32)) :
    fileBits file = bitStream 8 ((file.map Prod.fst).map UInt8.toNat) := by
  induction file with
  | nil => rfl
  | cons entry file ih =>
      have hcons : fileBits (entry :: file) =
          getBites (symbolMemory entry.1 entry.2) ++ fileBits file := rfl
      rw [hcons, getBites_symbolMemory, ih]
      rfl

/-!
## The points of the sender
-/

/-- A wait inside `send_bites` belongs to the bit before it; `arr` and `file`
are what is left behind that bit. -/
inductive SenderPoint where
  | start
  | connected
  | bit (value : Nat) (arr : List Nat) (file : List (UInt8 × UInt32))
  | wait (arr : List Nat) (file : List (UInt8 × UInt32))
  | finish
  | ended

def sendBitesAnswer (recPid : Pid) (arr : List Nat) (info : SigInfo) :
    Prog Signal :=
  if info.siPid = recPid then
    match info.signal with
    | Signal.sigFinish => return Signal.sigFinish
    | signal => sendBites recPid arr signal
  else if info.signal = Signal.sigStop then do
    Program.ask (Op.kill recPid Signal.sigStop)
    return Signal.sigStop
  else
    sendBites recPid arr info.signal

def SenderPoint.code (cfg : Config) : SenderPoint -> Prog Unit
  | SenderPoint.start => senderMain cfg.senPid cfg.recPid cfg.file
  | SenderPoint.connected =>
      senderConnected cfg.senPid cfg.recPid cfg.file
  | SenderPoint.bit value arr file =>
      sendBites cfg.recPid (value :: arr) Signal.sigContinue >>=
        sendFile cfg.recPid file
  | SenderPoint.wait arr file =>
      Program.call (Op.sigwaitinfo senderSigset)
        (fun info =>
          sendBitesAnswer cfg.recPid arr info >>= sendFile cfg.recPid file)
  | SenderPoint.finish => Program.ask (Op.kill cfg.recPid Signal.sigFinish)
  | SenderPoint.ended => Program.ret ()

def SenderPoint.bitsLeft (cfg : Config) : SenderPoint -> List Nat
  | SenderPoint.start => fileBits cfg.file
  | SenderPoint.connected => fileBits cfg.file
  | SenderPoint.bit value arr file => value :: arr ++ fileBits file
  | SenderPoint.wait arr file => arr ++ fileBits file
  | SenderPoint.finish => []
  | SenderPoint.ended => []

def nextPoint (arr : List Nat) (file : List (UInt8 × UInt32)) : SenderPoint :=
  match arr, file with
  | value :: arr, file => SenderPoint.bit value arr file
  | [], (symbol, behind) :: file =>
      let num := symbolMemory symbol behind
      SenderPoint.bit (num &&& 1).toNat (getBitesLoop 7 (num >>> 1)) file
  | [], [] => SenderPoint.finish

theorem nextPoint_code (cfg : Config) (arr : List Nat)
    (file : List (UInt8 × UInt32)) :
    (sendBites cfg.recPid arr Signal.sigContinue >>= sendFile cfg.recPid file) =
      (nextPoint arr file).code cfg := by
  cases arr with
  | cons value arr => rfl
  | nil =>
      cases file with
      | nil => rfl
      | cons entry file => rfl

theorem bitsLeft_nextPoint (cfg : Config) (arr : List Nat)
    (file : List (UInt8 × UInt32)) :
    (nextPoint arr file).bitsLeft cfg = arr ++ fileBits file := by
  cases arr with
  | cons value arr => rfl
  | nil =>
      cases file with
      | nil => rfl
      | cons entry file => rfl

/-!
## The points of the receiver
-/

inductive ReceiverPoint where
  | first
  | greet
  | loop (r : Receiver)
  | wait (r : Receiver)
  | write (r : Receiver)
  | ended (r : Receiver)

def Config.receiver (cfg : Config) : Receiver where
  senPid := cfg.senPid
  arr := cfg.arr
  arrLen := 0
  flag := true

def ReceiverPoint.code (cfg : Config) : ReceiverPoint -> Prog Receiver
  | ReceiverPoint.first => receiverStart cfg.arr
  | ReceiverPoint.greet =>
      Program.call (Op.kill cfg.senPid Signal.sigContinue)
        (fun _ => Program.ret cfg.receiver)
  | ReceiverPoint.loop r => receiverBody cfg.recPid r
  | ReceiverPoint.wait r => receiverWait cfg.recPid r
  | ReceiverPoint.write r => writeSymbol r
  | ReceiverPoint.ended r => Program.ret r

def Receiver.stored (r : Receiver) : List Nat :=
  (List.range r.arrLen).map r.arr

theorem map_range_update (arr : Nat -> Nat) (count value : Nat) :
    (List.range (count + 1)).map (Function.update arr count value) =
      (List.range count).map arr ++ [value] := by
  rw [List.range_succ, List.map_append, List.map_singleton,
    Function.update_self]
  congr 1
  apply List.map_congr_left
  intro i hi
  exact Function.update_of_ne (Nat.ne_of_lt (List.mem_range.mp hi)) _ _

theorem stored_get0 (r : Receiver) : r.get0.stored = r.stored ++ [0] :=
  map_range_update r.arr r.arrLen 0

theorem stored_get1 (r : Receiver) : r.get1.stored = r.stored ++ [1] :=
  map_range_update r.arr r.arrLen 1

theorem stored_length (r : Receiver) : r.stored.length = r.arrLen := by
  rw [Receiver.stored, List.length_map, List.length_range]

theorem num_eq {r : Receiver} (h : r.arrLen = 8) :
    r.num = Nat.ofDigits 2 r.stored := by
  have hrange : List.range 8 = [0, 1, 2, 3, 4, 5, 6, 7] := rfl
  simp only [Receiver.num, Receiver.stored, h, byte, hrange, List.foldl_cons,
    List.foldl_nil, List.map_cons, List.map_nil, Nat.ofDigits_cons,
    Nat.ofDigits_nil]
  lia

theorem bitsOf_written {r : Receiver} (h : r.arrLen = 8)
    (hbits : forall bit, bit ∈ r.stored -> bit < 2) :
    bitsOf 8 (UInt8.ofNat r.num).toNat = r.stored := by
  have hself := bitsOf_ofDigits hbits
  rw [stored_length, h] at hself
  rw [← hself, num_eq h]
  apply bitsOf_congr
  rw [UInt8.toNat_ofNat']
  exact Nat.mod_mod _ _

end SignalCopy
end UnixPrograms
