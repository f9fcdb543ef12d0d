import MiniHF.Host.Client
import MiniHF.Radio.ReplyProof

/-!
# The commands of the host library

A command of the library is a payload for `transact` and a decoder for the payload
of the response. Here one call of `transact` runs against a device on a line that
delivers every packet: the device handles the request, and the call finds what the
device sent under its id. Numbers that the library turns into `f64` stay the
integers they are on the line.
-/

namespace MiniHF.Host

open LittleEndian

/-- `MiniHFError`. -/
inductive MiniHFError where
  | timeout
  | nack
  | invalidPacket
  | io
  | invalidArgument (message : String)
  | portClosed
deriving DecidableEq, Repr

/-- `RtcTime`. -/
structure RtcTime where
  year : UInt16
  month : UInt8
  day : UInt8
  hour : UInt8
  minute : UInt8
  second : UInt8
deriving DecidableEq, Repr

/-- The `Result` of a call. -/
def CallResult.result : CallResult → Except MiniHFError (List UInt8)
  | .ok payload => .ok payload
  | .nack => .error .nack
  | .timeout => .error .timeout
  | .portClosed => .error .portClosed
  | .io => .error .io

section Api

variable (crc16Ccitt : UInt16 → List UInt8 → UInt16) (crc16Kermit : List UInt8 → UInt16)

/-- `transact` under the id `pktId`, with the device at the other end of the line. -/
def transact (d : Device) (pktId : UInt16) (cmdId : UInt8) (payload : List UInt8) :
    Except MiniHFError (List UInt8) × Device :=
  match buildPacket crc16Kermit cmdId pktId payload with
  | none =>
      (.error (.invalidArgument
        ("payload too large: " ++ toString payload.length ++ " bytes (max 255)")), d)
  | some raw =>
      let d' := d.parseDispatchPacket crc16Ccitt raw
      match (Device.replies (Device.outputSince d d')).find? (·.id = pktId) with
      | some pkt => ((resultOf pkt).result, d')
      | none => (.error .timeout, d')

/-- The payload of `set_rtc_time`. -/
def rtcTimePayload (time : RtcTime) : List UInt8 :=
  leBytes 2 time.year.toNat ++ [time.month] ++ [time.day] ++ [time.hour] ++ [time.minute]
    ++ [time.second]

/-- `set_rtc_time`. -/
def setRtcTime (d : Device) (pktId : UInt16) (time : RtcTime) : Except MiniHFError Unit × Device :=
  let (resp, d) := transact crc16Ccitt crc16Kermit d pktId 0x01 (rtcTimePayload time)
  (resp.map fun _ => (), d)

/-- What `get_rtc_time` makes of the response. -/
def decodeRtcTime (resp : List UInt8) : Except MiniHFError RtcTime :=
  if resp.length < 7 then .error .invalidPacket
  else .ok
    { year := UInt16.ofNat (leValue [resp.getD 0 0, resp.getD 1 0])
      month := resp.getD 2 0
      day := resp.getD 3 0
      hour := resp.getD 4 0
      minute := resp.getD 5 0
      second := resp.getD 6 0 }

/-- `get_rtc_time`. -/
def getRtcTime (d : Device) (pktId : UInt16) : Except MiniHFError RtcTime × Device :=
  let (resp, d) := transact crc16Ccitt crc16Kermit d pktId 0x02 []
  (resp.bind decodeRtcTime, d)

/-- The bytes `set_base_freq` sends for a number of hundredths of a hertz, `freq_int`. -/
def baseFreqPayload (freqInt : UInt64) : List UInt8 := leBytes 8 freqInt.toNat

/-- What `get_base_freq` makes of the response, before it divides by `100.0`. -/
def decodeBaseFreq (resp : List UInt8) : Except MiniHFError UInt64 :=
  if resp.length < 8 then .error .invalidPacket
  else .ok (UInt64.ofNat (leValue (resp.take 8)))

/-- `get_base_freq`, up to that division. -/
def getBaseFreq (d : Device) (pktId : UInt16) : Except MiniHFError UInt64 × Device :=
  let (resp, d) := transact crc16Ccitt crc16Kermit d pktId 0x04 []
  (resp.bind decodeBaseFreq, d)

end Api

end MiniHF.Host
