import MiniHF.Protocol.Payload
import MiniHF.Radio.TxEngine

/-!
# `radio_cmd.c` and the command table

Each handler gets the payload of a packet that passed the checks of
`parse_dispatch_packet`, and answers through `send_packet`. Handlers and the work
handler of the engine share one work queue, so a step of the device is a whole
packet, a whole run of the work handler, or an expiry of the timer.
-/

namespace MiniHF

open Interrupts

namespace Device

/-- `send_debug_message`. -/
def sendDebugMessage (message : String) (d : Device) : Device :=
  d.sendPacket 0xFC (message.toUTF8.toList.take 255) 0

/-- `send_ack`. -/
def sendAck (id : UInt16) (d : Device) : Device := d.sendPacket 0xFF [] id

/-- `send_nack`. -/
def sendNack (id : UInt16) (d : Device) : Device := d.sendPacket 0xFE [] id

/-- `handle_rtc_set_time`. -/
def handleRtcSetTime (payload : List UInt8) (id : UInt16) (d : Device) : Device :=
  let cursor := cursorInit payload
  if cursor.remaining < 7 then d.sendNack id
  else
    let (year, cursor) := cursorGetU16 cursor
    let (mon, cursor) := cursorGetU8 cursor
    let (mday, cursor) := cursorGetU8 cursor
    let (hour, cursor) := cursorGetU8 cursor
    let (min, cursor) := cursorGetU8 cursor
    let (sec, _) := cursorGetU8 cursor
    let tm : RtcTime :=
      { tmYear := (year.toNat : Int) - 1900, tmMon := (mon.toNat : Int) - 1, tmMday := mday.toNat
        tmHour := hour.toNat, tmMin := min.toNat, tmSec := sec.toNat }
    let (ret, d) := d.rtcSetTime tm
    if ret = 0 then d.sendAck id else d.sendNack id

/-- `handle_rtc_get_time`. -/
def handleRtcGetTime (_ : List UInt8) (id : UInt16) (d : Device) : Device :=
  let (ret, tm, d) := d.rtcGetTime
  if ret ≠ 0 then d.sendNack id
  else
    let writer := writerInit 16
    let writer := writerPutU16 writer (UInt16.ofInt (tm.tmYear + 1900))
    let writer := writerPutU8 writer (UInt8.ofInt (tm.tmMon + 1))
    let writer := writerPutU8 writer (UInt8.ofInt tm.tmMday)
    let writer := writerPutU8 writer (UInt8.ofInt tm.tmHour)
    let writer := writerPutU8 writer (UInt8.ofInt tm.tmMin)
    let writer := writerPutU8 writer (UInt8.ofInt tm.tmSec)
    if writer.error then d.sendNack id else d.sendPacket 0x02 writer.written id

/-- `BAND_30M_MIN_FREQ`. -/
def band30mMinFreq : UInt64 := 10100000 * 100

/-- `BAND_30M_MAX_FREQ`. -/
def band30mMaxFreq : UInt64 := 10150000 * 100

/-- `clamp_frequency`. -/
def clampFrequency (freq : UInt64) : UInt64 :=
  if freq < band30mMinFreq then band30mMinFreq
  else if freq > band30mMaxFreq then band30mMaxFreq
  else freq

/-- `handle_set_base_freq`. -/
def handleSetBaseFreq (payload : List UInt8) (id : UInt16) (d : Device) : Device :=
  let cursor := cursorInit payload
  if cursor.remaining < 8 then d.sendNack id
  else
    let (freq, cursor) := cursorGetU64 cursor
    let d := { d with baseFrequency := clampFrequency freq }
    if cursor.error then d.sendNack id else d.sendAck id

/-- `handle_get_base_freq`. -/
def handleGetBaseFreq (_ : List UInt8) (id : UInt16) (d : Device) : Device :=
  let writer := writerInit 8
  let writer := writerPutU64 writer d.baseFrequency
  if writer.error then d.sendNack id else d.sendPacket 0x04 writer.written id

/-- `handle_set_buck_boost_regulator`. -/
def handleSetBuckBoostRegulator (payload : List UInt8) (id : UInt16) (d : Device) : Device :=
  let cursor := cursorInit payload
  if cursor.remaining < 1 then d.sendNack id
  else
    let (state, _) := cursorGetU8 cursor
    let enabled := (state &&& 0x80) ≠ 0
    let voltageLevel := state &&& 0x1F
    let (_, d) := d.regulatorSetVoltage (voltageLevel.toNat * 1000000)
    let (_, d) := if enabled then d.regulatorEnable else d.regulatorDisable
    d.sendAck id

/-- `handle_get_buck_boost_regulator`. -/
def handleGetBuckBoostRegulator (_ : List UInt8) (id : UInt16) (d : Device) : Device :=
  let writer := writerInit 1
  let (ret, voltUv) := d.regulatorGetVoltage
  if ret < 0 then d.sendNack id
  else
    let voltageLevel := UInt8.ofInt (voltUv.tdiv 1000000)
    let enabled := d.regulatorIsEnabled
    let state := (if enabled then 0x80 else 0x00) ||| (voltageLevel &&& 0x1F)
    let writer := writerPutU8 writer state
    if writer.error then d.sendNack id else d.sendPacket 0x06 writer.written id

/--
`handle_reset`: the device boots again, and `main` gets to its loop. It can also give up,
if the clock generator, the clock or a relay pin is missing then; that is left out here.
The clock and the registers that `main` does not set keep what they held; what the console
shows goes on.
-/
def handleReset (_ : List UInt8) (_ : UInt16) (d : Device) : Device :=
  { boot d.si5351aRegs d.rtcTime d.regulator.microvolt d.results with out := d.out }

/-- `handle_tr_switch`. -/
def handleTrSwitch (payload : List UInt8) (id : UInt16) (d : Device) : Device :=
  let cursor := cursorInit payload
  if cursor.remaining < 1 then d.sendNack id
  else
    let (mode, _) := cursorGetU8 cursor
    if mode = 0 then d.trSetRx.sendAck id
    else if mode = 1 then d.trSetTx.sendAck id
    else d.sendNack id

/-- `test_signal_seq` with its one symbol, for a duration and a base frequency. -/
def testSignalSeq (durationMs : UInt32) (baseFrequency : UInt64) : TxSequence where
  baseFreqHz := (clampFrequency baseFrequency / 100).toUInt32
  symbols := [{ freqOffsetHz := 0, durationUs := durationMs * 1000, txOn := true }]
  totalSymbols := 1
  currentIndex := 0
  repeats := false
  valid := Nat.le_refl 1

/-- `handle_tx_test_signal`. -/
def handleTxTestSignal (payload : List UInt8) (id : UInt16) (d : Device) : Device :=
  if !d.txActive then
    (d.sendDebugMessage "Cannot start test signal: TX engine is not active").sendNack id
  else
    let cursor := cursorInit payload
    if cursor.remaining < 4 then d.sendNack id
    else
      let (durationMs, cursor) := cursorGetU32 cursor
      if cursor.error || durationMs = 0 then d.sendNack id
      else
        ((txEngineStart (some (testSignalSeq durationMs d.baseFrequency))).exec d).sendAck id

/-- `cmd_table`. -/
def cmdTable : List (UInt8 × (List UInt8 → UInt16 → Device → Device)) :=
  [(0x01, handleRtcSetTime),
   (0x02, handleRtcGetTime),
   (0x03, handleSetBaseFreq),
   (0x04, handleGetBaseFreq),
   (0x05, handleSetBuckBoostRegulator),
   (0x06, handleGetBuckBoostRegulator),
   (0x07, handleTxTestSignal),
   (0x08, handleTrSwitch),
   (0xFD, handleReset)]

/-- The loop of `parse_dispatch_packet` over `cmd_table`. -/
def dispatch (p : Packet) (d : Device) : Device :=
  match cmdTable.find? (·.1 == p.type) with
  | some (_, handler) => handler p.payload p.id d
  | none => d

/-- `parse_dispatch_packet`. -/
def parseDispatchPacket (crc16Ccitt : UInt16 → List UInt8 → UInt16) (data : List UInt8)
    (d : Device) : Device :=
  match checkPacket crc16Ccitt data with
  | some p => d.dispatch p
  | none => d

end Device

/-- What can happen to the device after boot. -/
inductive DeviceEvent where
  /-- The handler on the work queue takes a decoded frame from the queue. -/
  | receive (data : List UInt8)
  /-- `tx_timer` expires. -/
  | expire
  /-- The work queue runs `tx_work_handler`. -/
  | work

/-- One event. -/
def deviceStep (crc16Ccitt : UInt16 → List UInt8 → UInt16) (d : Device) : DeviceEvent → Device
  | .receive data => d.parseDispatchPacket crc16Ccitt data
  | .expire => atomicStep engine d .irq
  | .work => atomicStep engine d (.op .work)

end MiniHF
