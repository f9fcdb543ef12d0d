import MiniHF.Protocol.Packet

/-!
# Packets on the host

`build_packet` and `parse_packet` of the host library. A slice `raw[a..b]` is
`(raw.take b).drop a`; the CRC function is the crate's and a parameter.
-/

namespace MiniHF.Host

open LittleEndian

/-- `HEADER_BYTE`. -/
def headerByte : UInt8 := 0xAA

/-- `HEADER_SIZE`. -/
def headerSize : Nat := 5

section Codec

-- `Crc::<u16>::new(&CRC_16_KERMIT).checksum`.
variable (crc16Kermit : List UInt8 → UInt16)

/-- `build_packet`; `none` where its assertion on the payload length panics. -/
def buildPacket (cmdId : UInt8) (pktId : UInt16) (payload : List UInt8) : Option (List UInt8) :=
  if payload.length ≤ 255 then
    let buf := [headerByte] ++ [cmdId] ++ leBytes 2 pktId.toNat ++ [UInt8.ofNat payload.length]
      ++ payload
    let checksum := crc16Kermit buf
    some (buf ++ leBytes 2 checksum.toNat)
  else none

/-- `parse_packet`. -/
def parsePacket (raw : List UInt8) : Option Packet :=
  if raw.length < headerSize + 2 then none
  else if raw.getD 0 0 ≠ headerByte then none
  else
    let ptype := raw.getD 1 0
    let id := UInt16.ofNat (leValue [raw.getD 2 0, raw.getD 3 0])
    let length := (raw.getD 4 0).toNat
    if raw.length < headerSize + length + 2 then none
    else
      let payload := (raw.take (headerSize + length)).drop headerSize
      let crcCalc := crc16Kermit (raw.take (headerSize + length))
      let crcRecv := UInt16.ofNat
        (leValue [raw.getD (headerSize + length) 0, raw.getD (headerSize + length + 1) 0])
      if crcCalc ≠ crcRecv then none
      else some { type := ptype, id, payload }

end Codec

end MiniHF.Host
