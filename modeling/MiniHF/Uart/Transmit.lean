import MiniHF.Lib.Fifo
import MiniHF.Protocol.Packet

/-!
# The transmit side of `uart_handler.c`

`send_uart_data` puts a frame into the transmit ring and enables the interrupt;
each transmit pass of `uart_isr` hands at most 64 bytes of the ring to the UART
and disables the interrupt once the ring is empty.

`send_packet` ignores what `send_uart_data` returns, so a frame that does not fit
is cut. How much of the ring is contiguous, and how many bytes the UART takes, are
the environment's choices and come with the event.
-/

namespace MiniHF

/-- `RING_BUF_SIZE`, for the transmit ring. -/
def txRingBufSize : Nat := 512

/-- The transmit state of `uart_handler.c`. -/
structure Transmit where
  txRingBuf : Fifo UInt8 txRingBufSize
  /-- The transmit interrupt is enabled. -/
  txIrq : Bool
  /-- Proof only: the bytes handed to the UART, in order. -/
  drained : List UInt8
  /-- Proof only: the packets whose frames were passed to `send_uart_data`, in order. -/
  sent : List Packet

/-- The transmitter after `uart_handler_init`. -/
def Transmit.init : Transmit where
  txRingBuf := Fifo.empty
  txIrq := false
  drained := []
  sent := []

/-- `send_uart_data`: the number of bytes stored, and the new state. -/
def sendUartData (t : Transmit) (data : List UInt8) : Nat × Transmit :=
  (t.txRingBuf.putCount data, { t with txRingBuf := t.txRingBuf.put data, txIrq := true })

/-- The transmit pass of `uart_isr`, with `ring_buf_get_claim` and `uart_fifo_fill`. -/
def uartIsrTx (t : Transmit) (contiguous accepted : Nat) : Transmit :=
  let lenInBuf := min (min 64 contiguous) t.txRingBuf.items.length
  if lenInBuf > 0 then
    let written := min accepted lenInBuf
    let (out, txRingBuf) := t.txRingBuf.get written
    { t with txRingBuf, drained := t.drained ++ out }
  else { t with txIrq := false }

/-- What can happen to the transmitter. -/
inductive TxEvent where
  /-- A call of `send_packet`. -/
  | send (cmdId : UInt8) (payload : List UInt8) (id : UInt16)
  /-- A transmit pass; the ring offers `contiguous` bytes, the UART takes `accepted`. -/
  | pass (contiguous accepted : Nat)

section Device

variable (crc16Ccitt : UInt16 → List UInt8 → UInt16) (junk : ∀ n, Vector UInt8 n)

def Transmit.step (t : Transmit) : TxEvent → Except Fault Transmit
  | .send cmdId payload id => do
      match ← sendPacket crc16Ccitt junk cmdId payload id with
      | some bytes =>
          return { (sendUartData t bytes).2 with sent := t.sent ++ [{ type := cmdId, id, payload }] }
      | none => return t
  | .pass contiguous accepted => .ok (uartIsrTx t contiguous accepted)

/-- The transmitter as a system: a fault is a state it never leaves. -/
def txStep (s : Except Fault Transmit) (e : TxEvent) : Except Fault Transmit :=
  s >>= fun t => t.step crc16Ccitt junk e

end Device

/-! ## Calls that an interrupt can split -/

/-- The transmitter and the calls of `send_uart_data` that are under way. -/
structure Sender where
  transmit : Transmit
  /-- How many calls have put their bytes and not yet enabled the interrupt. -/
  enabling : Nat
  /-- Proof only: the bytes the ring has stored, in order. -/
  accepted : List UInt8

def Sender.init : Sender where
  transmit := Transmit.init
  enabling := 0
  accepted := []

/-- What can happen between two statements. -/
inductive SenderEvent where
  /-- `ring_buf_put` of a call. -/
  | put (data : List UInt8)
  /-- `uart_irq_tx_enable` of a call. -/
  | enable
  /-- A transmit pass. A ring that holds bytes offers at least one of them. -/
  | pass (contiguous accepted : Nat) (offers : 0 < contiguous)

/-- `send_uart_data` in two steps, and `uart_isr` in one. -/
def senderStep (s : Sender) : SenderEvent → Sender
  | .put data =>
      { transmit := { s.transmit with txRingBuf := s.transmit.txRingBuf.put data }
        enabling := s.enabling + 1
        accepted := s.accepted ++ data.take (s.transmit.txRingBuf.putCount data) }
  | .enable =>
      if s.enabling = 0 then s
      else { s with transmit := { s.transmit with txIrq := true }, enabling := s.enabling - 1 }
  | .pass contiguous accepted _ => { s with transmit := uartIsrTx s.transmit contiguous accepted }

end MiniHF
