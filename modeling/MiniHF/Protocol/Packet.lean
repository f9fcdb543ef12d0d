import MiniHF.Lib.LittleEndian
import MiniHF.Protocol.Cobs

/-!
# Packets on the device

`send_packet` builds a packet in a stack buffer, COBS-encodes it into a second
one and hands the bytes to the UART; `parse_dispatch_packet` checks a received
byte string and passes it to a handler. What a stack buffer held before is a
parameter (`junk`), and so is the CRC function, which belongs to the RTOS.
-/

namespace MiniHF

open Buffer LittleEndian

/-- `sys_put_le16`. -/
def putLe16 (v : UInt16) : List UInt8 := leBytes 2 v.toNat

/-- `sys_get_le16` at index `i`. -/
def getLe16 (data : List UInt8) (i : Nat) : UInt16 :=
  UInt16.ofNat (leValue [data.getD i 0, data.getD (i + 1) 0])

/-- `sizeof(packet_t)`: header, type, id and length. -/
def packetSize : Nat := 5

/-- A packet's type, id and payload. -/
structure Packet where
  type : UInt8
  id : UInt16
  payload : List UInt8
deriving DecidableEq, Repr

section Device

-- `crc16_ccitt(seed, data)`.
variable (crc16Ccitt : UInt16 → List UInt8 → UInt16)

/-- The raw bytes `send_packet` builds in `buf`, up to `raw_len`. -/
def sendPacketRaw (junk : ∀ n, Vector UInt8 n) (cmdId : UInt8) (payload : List UInt8)
    (id : UInt16) : Except Fault (List UInt8) := do
  let buf : Vector UInt8 (packetSize + 255 + 2) := junk _
  let buf ← store buf 0 0xAA
  let buf ← store buf 1 cmdId
  let buf ← memcpy buf 2 (putLe16 id)
  let buf ← store buf 4 (UInt8.ofNat payload.length)
  let buf ← memcpy buf packetSize payload
  let pktSize := packetSize + payload.length
  let crc := crc16Ccitt 0 (buf.toList.take pktSize)
  let buf ← memcpy buf pktSize (putLe16 crc)
  return buf.toList.take (pktSize + 2)

/--
`send_packet`: the bytes it passes to `send_uart_data`, or `none` where it returns
without sending. The COBS buffer has room for two bytes of overhead and the
delimiter.
-/
def sendPacket (junk : ∀ n, Vector UInt8 n) (cmdId : UInt8) (payload : List UInt8)
    (id : UInt16) : Except Fault (Option (List UInt8)) :=
  if payload.length > 255 then .ok none
  else do
    let raw ← sendPacketRaw crc16Ccitt junk cmdId payload id
    let cobsBuf : Vector UInt8 (raw.length + 2 + 1) := junk _
    let (cobsLen, cobsBuf) ← cobsEncode raw cobsBuf
    let cobsBuf ← store cobsBuf cobsLen 0x00
    return some (cobsBuf.toList.take (cobsLen + 1))

/-- The length, header and CRC checks of `parse_dispatch_packet`, and what it hands on. -/
def checkPacket (data : List UInt8) : Option Packet :=
  if data.length < packetSize + 2 then none
  else if data.getD 0 0 ≠ 0xAA then none
  else
    let length := (data.getD 4 0).toNat
    let expectedLen := packetSize + length + 2
    if data.length < expectedLen then none
    else
      let crcCalculated := crc16Ccitt 0 (data.take (packetSize + length))
      let crcReceived := getLe16 data (packetSize + length)
      if crcCalculated ≠ crcReceived then none
      else some
        { type := data.getD 1 0
          id := getLe16 data 2
          payload := (data.drop packetSize).take length }

end Device

end MiniHF
