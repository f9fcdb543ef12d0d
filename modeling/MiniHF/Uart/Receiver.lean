import MiniHF.Lib.Fifo
import MiniHF.Lib.Runs
import MiniHF.Protocol.Cobs

/-!
# The receive side of `uart_handler.c`

`uart_isr` collects bytes in a ring. At a zero byte it takes what its COBS buffer
holds from the ring, decodes it and queues the packet as a fixed-size message
with the length in front; `rx_dispatch_handler`, on the work queue, takes the
messages out again.

The receiver is a system of byte-sized events, so that the handler may run
between any two bytes. The message the ISR builds is a local it does not
initialise, so its old contents come with the event.
-/

namespace MiniHF

open Buffer

/-- `RING_BUF_SIZE`. -/
def ringBufSize : Nat := 512

/-- `DECODED_PKT_MAX`. -/
def decodedPktMax : Nat := 300

/-- `COBS_BUF_MAX`. -/
def cobsBufMax : Nat := decodedPktMax + decodedPktMax / 254 + 1

/-- `RX_MSG_SIZE`. -/
def rxMsgSize : Nat := 2 + decodedPktMax

/-- `RX_QUEUE_DEPTH`. -/
def rxQueueDepth : Nat := 4

/-- A message of `rx_pkt_msgq`. -/
abbrev RxMsg := Vector UInt8 rxMsgSize

/-- The receive state of `uart_handler.c`. -/
structure Receiver where
  rxRingBuf : Fifo UInt8 ringBufSize
  isrCobsBuf : Vector UInt8 cobsBufMax
  isrDecodedBuf : Vector UInt8 decodedPktMax
  rxPktMsgq : Fifo RxMsg rxQueueDepth
  /-- `rx_dispatch_work` is queued. -/
  rxDispatchWork : Bool
  /-- `rx_dispatch_handler` is running. -/
  handlerRunning : Bool
  /-- Proof only: the packets `k_msgq_put` accepted, in order. -/
  accepted : List (List UInt8)
  /-- Proof only: the packets passed to `parse_dispatch_packet`, in order. -/
  dispatched : List (List UInt8)

/-- The receiver after `uart_handler_init`; the buffers are static and zero. -/
def Receiver.init : Receiver where
  rxRingBuf := Fifo.empty
  isrCobsBuf := Vector.replicate _ 0
  isrDecodedBuf := Vector.replicate _ 0
  rxPktMsgq := Fifo.empty
  rxDispatchWork := false
  handlerRunning := false
  accepted := []
  dispatched := []

/-- The message `uart_isr` builds for `k_msgq_put` from the local `msg`. -/
def packMsg (msg : RxMsg) (decoded : List UInt8) : Except Fault RxMsg := do
  let msg ← store msg 0 (UInt8.ofNat (decoded.length &&& 0xFF))
  let msg ← store msg 1 (UInt8.ofNat ((decoded.length >>> 8) &&& 0xFF))
  memcpy msg 2 decoded

/-- The packet `rx_dispatch_handler` passes to `parse_dispatch_packet`. -/
def unpackMsg (msg : RxMsg) : List UInt8 :=
  let len : UInt16 := (msg.toList.getD 0 0).toUInt16 ||| ((msg.toList.getD 1 0).toUInt16 <<< 8)
  (msg.toList.drop 2).take len.toNat

/-- `k_msgq_put`, and `k_work_submit` if the message was accepted. -/
def Receiver.enqueue (r : Receiver) (msg : RxMsg) (decoded : List UInt8) : Receiver :=
  match r.rxPktMsgq.offer msg with
  | some q =>
      { r with rxPktMsgq := q, rxDispatchWork := true, accepted := r.accepted ++ [decoded] }
  | none => r

/-- One round of the receive loop of `uart_isr`, for the byte just read. -/
def uartIsrByte (r : Receiver) (msg : RxMsg) (byte : UInt8) : Except Fault Receiver :=
  if byte = 0x00 then do
    let (taken, rxRingBuf) := r.rxRingBuf.get cobsBufMax
    let isrCobsBuf ← memcpy r.isrCobsBuf 0 taken
    let r := { r with rxRingBuf, isrCobsBuf }
    if taken.length > 0 then
      let (ret, isrDecodedBuf) ←
        cobsDecode (isrCobsBuf.toList.take taken.length) r.isrDecodedBuf
      let r := { r with isrDecodedBuf }
      let decodedLen := ret.getD 0
      if decodedLen > 0 ∧ decodedLen ≤ decodedPktMax then
        let decoded := isrDecodedBuf.toList.take decodedLen
        let msg ← packMsg msg decoded
        return r.enqueue msg decoded
      else return r
    else return r
  else return { r with rxRingBuf := r.rxRingBuf.put [byte] }

/-- What can happen to the receiver. -/
inductive RxEvent where
  /-- `uart_isr` reads a byte; `msg` is what its local held before. -/
  | byte (b : UInt8) (msg : RxMsg)
  /-- The work queue starts `rx_dispatch_handler`. -/
  | start
  /-- The handler calls `k_msgq_get` and deals with what it gets. -/
  | next

/-- One event; one that is not enabled changes nothing. -/
def Receiver.step (r : Receiver) : RxEvent → Except Fault Receiver
  | .byte b msg => uartIsrByte r msg b
  | .start =>
      if r.rxDispatchWork && !r.handlerRunning then
        .ok { r with rxDispatchWork := false, handlerRunning := true }
      else .ok r
  | .next =>
      if r.handlerRunning then
        match r.rxPktMsgq.get 1 with
        | (msg :: _, q) => .ok { r with rxPktMsgq := q, dispatched := r.dispatched ++ [unpackMsg msg] }
        | ([], _) => .ok { r with handlerRunning := false }
      else .ok r

/-- The receiver as a system: a fault is a state it never leaves. -/
def rxStep (s : Except Fault Receiver) (e : RxEvent) : Except Fault Receiver :=
  s >>= fun r => r.step e

/-- The bytes that arrive during a run. -/
def bytesOf : List RxEvent → List UInt8
  | [] => []
  | .byte b _ :: es => b :: bytesOf es
  | _ :: es => bytesOf es

end MiniHF
