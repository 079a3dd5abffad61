import UnixPrograms.SignalCopy.Signals
import UnixPrograms.Foundation.Bits

/-!
# Sender and receiver

`sender.c` and `receiver.c` as programs over signals.  The sender's file is
the list of its bytes, each with the three bytes of memory behind `symbol`
that `get_bites` reads as well; the receiver's file is what it has written.
The text that both print is left out.
-/

namespace UnixPrograms
namespace SignalCopy

open Foundation

structure Exit where
  code : Nat
deriving DecidableEq

abbrev Prog (alpha : Type) := Program Op Op.Res Exit alpha

def byte : Nat := 8

/-!
## The sender
-/

/-- The memory at `symbol`, as a 32-bit little-endian number. -/
def symbolMemory (symbol : UInt8) (behind : UInt32) : UInt32 :=
  symbol.toUInt32 + behind * 256

def getBitesLoop : Nat -> UInt32 -> List Nat
  | 0, _ => []
  | count + 1, num => (num &&& 1).toNat :: getBitesLoop count (num >>> 1)

def getBites (num : UInt32) : List Nat :=
  getBitesLoop byte num

def senderSigset : List Signal :=
  [Signal.sigFinish, Signal.sigContinue, Signal.sigStop]

/-- The loop of `send_bites` over the rest of `arr`; `signal` is the last
signal taken. -/
def sendBites (recPid : Pid) : List Nat -> Signal -> Prog Signal
  | [], signal => return signal
  | bit :: arr, _ => do
      Program.ask
        (Op.kill recPid (if bit = 0 then Signal.sigGet0 else Signal.sigGet1))
      let info <- Program.ask (Op.sigwaitinfo senderSigset)
      if info.siPid = recPid then
        match info.signal with
        | Signal.sigFinish => return Signal.sigFinish
        | signal => sendBites recPid arr signal
      else if info.signal = Signal.sigStop then
        Program.ask (Op.kill recPid Signal.sigStop)
        return Signal.sigStop
      else
        sendBites recPid arr info.signal

/-- The loop over the file, and `SIG_FINISH` after it. -/
def sendFile (recPid : Pid) : List (UInt8 × UInt32) -> Signal -> Prog Unit
  | [], _ => Program.ask (Op.kill recPid Signal.sigFinish)
  | (symbol, behind) :: file, signal =>
      if signal = Signal.sigContinue then do
        let signal <-
          sendBites recPid (getBites (symbolMemory symbol behind)) signal
        sendFile recPid file signal
      else
        Program.ask (Op.kill recPid Signal.sigFinish)

/-- `main` of the sender, behind its first `kill`. -/
def senderConnected (myPid recPid : Pid) (file : List (UInt8 × UInt32)) :
    Prog Unit := do
  let info <- Program.ask (Op.sigwaitinfo senderSigset)
  if info.signal = Signal.sigFinish then
    Program.halt { code := myPid }
  else
    sendFile recPid file info.signal

def senderMain (myPid recPid : Pid) (file : List (UInt8 × UInt32)) :
    Prog Unit := do
  Program.ask (Op.kill recPid Signal.sigContinue)
  senderConnected myPid recPid file

/-!
## The receiver
-/

/-- The globals of `receiver.c`, and `sen_pid`. -/
structure Receiver where
  senPid : Pid
  arr : Nat -> Nat
  arrLen : Nat
  flag : Bool

def Receiver.get0 (r : Receiver) : Receiver :=
  { r with arr := Function.update r.arr r.arrLen 0, arrLen := r.arrLen + 1 }

def Receiver.get1 (r : Receiver) : Receiver :=
  { r with arr := Function.update r.arr r.arrLen 1, arrLen := r.arrLen + 1 }

def Receiver.finish (r : Receiver) : Receiver :=
  { r with flag := false }

def Receiver.num (r : Receiver) : Nat :=
  (List.range byte).foldl
    (fun (acc : Nat × Nat) i => (acc.1 + r.arr i * acc.2, acc.2 * 2)) (0, 1) |>.1

def writeSymbol (r : Receiver) : Prog Receiver := do
  Program.ask (Op.write (UInt8.ofNat r.num))
  return { r with arrLen := 0 }

def receiverSigset : List Signal :=
  [Signal.sigFinish, Signal.sigGet0, Signal.sigGet1, Signal.sigContinue,
    Signal.sigStop]

def Receiver.switch (r : Receiver) : Signal -> Receiver
  | Signal.sigGet0 => r.get0
  | Signal.sigGet1 => r.get1
  | Signal.sigFinish => r.finish
  | Signal.sigStop => { r with flag := false }
  | Signal.sigContinue => r

/-- The body of the loop, behind its `kill`. -/
def receiverWait (myPid : Pid) (r : Receiver) : Prog Receiver := do
  let info <- Program.ask (Op.sigwaitinfo receiverSigset)
  if r.senPid = info.siPid then
    let r := r.switch info.signal
    if r.arrLen = 8 then writeSymbol r else return r
  else if info.signal = Signal.sigStop then
    Program.ask (Op.kill r.senPid Signal.sigFinish)
    return { r with flag := false }
  else if info.siPid ≠ myPid then
    Program.ask (Op.kill info.siPid Signal.sigFinish)
    return r
  else
    return r

def receiverBody (myPid : Pid) (r : Receiver) : Prog Receiver := do
  Program.ask (Op.kill r.senPid Signal.sigContinue)
  receiverWait myPid r

/-- `main` up to its loop; the array is not initialised. -/
def receiverStart (arr : Nat -> Nat) : Prog Receiver := do
  let info <- Program.ask (Op.sigwaitinfo receiverSigset)
  Program.ask (Op.kill info.siPid Signal.sigContinue)
  return { senPid := info.siPid, arr := arr, arrLen := 0, flag := true }

def receiverLoop (myPid : Pid) (code : Prog Receiver) : Prog Receiver :=
  code.again Receiver.flag (receiverBody myPid)

end SignalCopy
end UnixPrograms
