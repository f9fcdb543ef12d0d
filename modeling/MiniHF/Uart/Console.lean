import MiniHF.Radio.Device
import MiniHF.Uart.Transmit

/-!
# One UART for packets and console

`lpuart1` is the console and the packet link at once. Text goes out as it is; a
packet is framed by `send_packet` and goes out as far as the transmit ring takes
it. The bytes leave in program order.
-/

namespace MiniHF

/-- The bytes of a text; every text the firmware prints is ASCII. -/
def textBytes (text : String) : List UInt8 := text.toList.map fun c => UInt8.ofNat c.toNat

section Device

variable (crc16Ccitt : UInt16 → List UInt8 → UInt16) (junk : ∀ n, Vector UInt8 n)

/-- The bytes an output leaves on `lpuart1`, with the transmit ring in state `t`. -/
def lpuart1 (t : Transmit) : List Output → List UInt8
  | [] => []
  | .printk text :: out => textBytes text ++ lpuart1 t out
  | .packet p :: out =>
      match sendPacket crc16Ccitt junk p.type p.payload p.id with
      | .ok (some bytes) =>
          let (stored, t) := sendUartData t bytes
          bytes.take stored ++ lpuart1 t out
      | _ => lpuart1 t out

/-- The bytes an output queues in the transmit ring. -/
def queued : List Output → Nat
  | [] => 0
  | .printk _ :: out => queued out
  | .packet p :: out =>
      match sendPacket crc16Ccitt junk p.type p.payload p.id with
      | .ok (some bytes) => bytes.length + queued out
      | _ => queued out

end Device

end MiniHF
