import UnixPrograms.Foundation.Transition
import UnixPrograms.Foundation.Records
import UnixPrograms.Socket.Lib

/-!
# Messages over TCP

`send_buf` and `receive_buf` of `TCP.c` on one direction of a connection.  The
stream is reliable: `send` appends to the bytes in flight, and each `recv`
takes as many of them as it pleases, at most as many as it asks for.
-/

namespace UnixPrograms
namespace Socket
namespace Tcp

open Foundation

def sendBuf (inFlight data : Bytes) : Bytes × Bytes :=
  let data := encode data
  (data, inFlight ++ data.take BUFSZ)

/-- The result of `receive_buf`, the content of `buffer`, and the bytes that
remain in flight; `none` is a failing `recv`. -/
def receiveBuf (inFlight : Bytes) (size : Option Nat) : (Int × Bytes) × Bytes :=
  let buffer := zeros BUFSZ
  match size with
  | none => ((-1, buffer), inFlight)
  | some size =>
      let received := inFlight.take size
      let buffer := received ++ buffer.drop received.length
      if BUFSZ ≤ size then
        ((-1, buffer), inFlight.drop size)
      else
        let buffer := decode buffer
        ((strlen buffer, buffer), inFlight.drop size)

structure Connection where
  inFlight : Bytes
  buffers : List Bytes

def Connection.opened : Connection :=
  { inFlight := [], buffers := [] }

inductive Event where
  | send (data : Bytes)
  | receive (size : Nat)
deriving DecidableEq

/-- The calls of the two sides.  `recv` waits for a byte and is asked for
`BUFSZ - 1` of them. -/
def step (c : Connection) : Event -> Option Connection
  | Event.send data => some { c with inFlight := (sendBuf c.inFlight data).2 }
  | Event.receive size =>
      if 0 < size ∧ size ≤ BUFSZ - 1 ∧ size ≤ c.inFlight.length then
        let (result, inFlight) := receiveBuf c.inFlight (some size)
        some { inFlight := inFlight, buffers := c.buffers ++ [result.2] }
      else
        none

def sentBuffers (events : List Event) : List Bytes :=
  events.filterMap (fun e =>
    match e with
    | Event.send data => some data
    | Event.receive _ => none)

def recvResults (events : List Event) : List Nat :=
  events.filterMap (fun e =>
    match e with
    | Event.send _ => none
    | Event.receive size => some size)

def strings (buffers : List Bytes) : List Bytes :=
  (buffers.map cstr).filter (fun s => s ≠ [])

/-- What the sending side may pass: the string, zero-padded to the buffer. -/
def paddedBuffer (message : Bytes) : Bytes :=
  message ++ zeros (BUFSZ - message.length)

structure IsMessage (message : Bytes) : Prop where
  nonempty : message ≠ []
  short : message.length ≤ BUFSZ - 2
  maskable : Maskable message

theorem IsMessage.le {message : Bytes} (h : IsMessage message) :
    message.length ≤ BUFSZ :=
  le_trans h.short (Nat.sub_le _ _)

end Tcp
end Socket
end UnixPrograms
