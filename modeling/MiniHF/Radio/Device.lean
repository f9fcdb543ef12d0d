import MiniHF.Protocol.Packet

/-!
# The device: globals, peripherals and driver calls

`Device` holds the globals of `radio.c`, `tr_switch.c` and `tx_engine.c` and what
the peripherals behind the driver calls remember. A driver call that goes over
the bus takes its return value from `results`, so every combination of success
and failure is a value of that list; an empty list stands for success from then
on. The two relay pins belong to the processor and cannot fail.

What the device puts out, `printk` text and packets alike, is one list in program
order.
-/

namespace MiniHF

/-- `tx_symbol_t`. -/
structure TxSymbol where
  freqOffsetHz : Rat
  durationUs : UInt32
  txOn : Bool
deriving DecidableEq, Repr

/-- `tx_sequence_t`; `symbols` points to at least `total_symbols` entries. -/
structure TxSequence where
  baseFreqHz : UInt32
  symbols : List TxSymbol
  totalSymbols : Nat
  currentIndex : Nat
  repeats : Bool
  /-- There is a symbol for every index. -/
  valid : totalSymbols ≤ symbols.length
deriving DecidableEq, Repr

/-- `symbols[i]`. -/
def TxSequence.symbol (seq : TxSequence) (i : Nat) : TxSymbol :=
  seq.symbols.getD i { freqOffsetHz := 0, durationUs := 0, txOn := false }

/-- The fields of `struct rtc_time` the firmware reads and writes. -/
structure RtcTime where
  tmYear : Int
  tmMon : Int
  tmMday : Int
  tmHour : Int
  tmMin : Int
  tmSec : Int
deriving DecidableEq, Repr

/-- The regulator behind `regulator_enable` and its kin. -/
structure Regulator where
  /-- The use count of the regulator core. -/
  refcnt : Int
  /-- The output enable bit of the chip. -/
  outputOn : Bool
  /-- The voltage last set with success. -/
  microvolt : Int
deriving DecidableEq, Repr

/-- What the device puts out on its UART. -/
inductive Output where
  | printk (text : String)
  | packet (p : Packet)
deriving DecidableEq, Repr

/-- The device between two operations of its work queue. -/
structure Device where
  baseFrequency : UInt64
  txActive : Bool
  /-- Pin `tr_fwd`. -/
  trFwd : Bool
  /-- Pin `tr_bwd`. -/
  trBwd : Bool
  activeSeq : Option TxSequence
  engineActive : Bool
  /-- `tx_timer`: its duration in microseconds while it is armed. -/
  txTimer : Option UInt32
  /-- `tx_work` is queued. -/
  txWork : Bool
  regulator : Regulator
  /-- The registers of the clock generator. -/
  si5351aRegs : UInt8 → UInt8
  /-- The time the clock keeps. -/
  rtcTime : RtcTime
  /-- What the next driver calls return. -/
  results : List Int
  out : List Output
  /-- Proof only: the sequence of the last accepted start. -/
  started : Option TxSequence
  /-- Proof only: the symbols applied since that start, in order. -/
  applied : List TxSymbol
  /-- Proof only: the expiries of `tx_timer` since it was last stopped. -/
  expiries : Nat

namespace Device

/-! ## Output -/

def printk (text : String) (d : Device) : Device := { d with out := d.out ++ [.printk text] }

/-- `send_packet`, as far as the packet goes; it drops payloads of more than 255 bytes. -/
def sendPacket (d : Device) (cmdId : UInt8) (payload : List UInt8) (id : UInt16) : Device :=
  if payload.length > 255 then d
  else { d with out := d.out ++ [.packet { type := cmdId, id, payload }] }

/-! ## Kernel objects -/

/-- `k_timer_start`, one shot. -/
def kTimerStart (duration : UInt32) (d : Device) : Device := { d with txTimer := some duration }

/-- `k_timer_stop`. -/
def kTimerStop (d : Device) : Device := { d with txTimer := none, expiries := 0 }

/-- `k_work_cancel`, on an item that is not running. -/
def kWorkCancel (d : Device) : Device := { d with txWork := false }

/-- `k_work_submit`. -/
def kWorkSubmit (d : Device) : Device := { d with txWork := true }

/-! ## Drivers -/

/-- The return value of the next driver call. -/
def result (d : Device) : Int × Device :=
  match d.results with
  | [] => (0, d)
  | ret :: results => (ret, { d with results })

/-- `si5351a_read_reg`: its return value and the byte it stores. -/
def si5351aReadReg (d : Device) (reg : UInt8) : Int × UInt8 × Device :=
  let (ret, d) := d.result
  if ret ≠ 0 then (ret, 0, d) else (0, d.si5351aRegs reg, d)

/-- `si5351a_write_reg`. -/
def si5351aWriteReg (d : Device) (reg value : UInt8) : Int × Device :=
  let (ret, d) := d.result
  if ret ≠ 0 then (ret, d)
  else (0, { d with si5351aRegs := fun r => if r = reg then value else d.si5351aRegs r })

/-- `si5351a_REGISTER_3_OUTPUT_ENABLE_CONTROL`. -/
def outputEnableControl : UInt8 := 3

/-- `si5351a_enable_output`; a set bit disables the output. -/
def si5351aEnableOutput (d : Device) (output : UInt8) (enable : Bool) : Int × Device :=
  if output > 7 then (-22, d)
  else
    let (ret, regVal, d) := d.si5351aReadReg outputEnableControl
    if ret ≠ 0 then (ret, d)
    else
      let regVal := if enable then regVal &&& ~~~(1 <<< output) else regVal ||| (1 <<< output)
      d.si5351aWriteReg outputEnableControl regVal

/-- `regulator_enable`: the driver is called when the use count becomes 1. -/
def regulatorEnable (d : Device) : Int × Device :=
  let refcnt := d.regulator.refcnt + 1
  if refcnt = 1 then
    let (ret, d) := d.result
    if ret < 0 then (ret, d)
    else (ret, { d with regulator := { d.regulator with refcnt, outputOn := true } })
  else (0, { d with regulator := { d.regulator with refcnt } })

/-- `regulator_disable`: the driver is called when the use count becomes 0. -/
def regulatorDisable (d : Device) : Int × Device :=
  let refcnt := d.regulator.refcnt - 1
  if refcnt = 0 then
    let (ret, d) := d.result
    if ret < 0 then (ret, d)
    else (ret, { d with regulator := { d.regulator with refcnt, outputOn := false } })
  else (0, { d with regulator := { d.regulator with refcnt } })

/-- `regulator_set_voltage`. -/
def regulatorSetVoltage (d : Device) (uv : Int) : Int × Device :=
  let (ret, d) := d.result
  if ret < 0 then (ret, d) else (ret, { d with regulator := { d.regulator with microvolt := uv } })

/-- `regulator_get_voltage`: `tps55289_api` has no `get_voltage`, so it is `-ENOSYS`. -/
def regulatorGetVoltage (_ : Device) : Int × Int := (-88, 0)

/-- `regulator_is_enabled`. -/
def regulatorIsEnabled (d : Device) : Bool := d.regulator.refcnt ≠ 0

/-- `rtc_set_time`. -/
def rtcSetTime (d : Device) (tm : RtcTime) : Int × Device :=
  let (ret, d) := d.result
  if ret ≠ 0 then (ret, d) else (0, { d with rtcTime := tm })

/-- `rtc_get_time`. -/
def rtcGetTime (d : Device) : Int × RtcTime × Device :=
  let (ret, d) := d.result
  (ret, d.rtcTime, d)

/-! ## What a driver call can touch -/

theorem result_touches (d : Device) : ∃ results, d.result.2 = { d with results } := by
  unfold result
  split
  · exact ⟨d.results, rfl⟩
  · exact ⟨_, rfl⟩

theorem si5351aReadReg_touches (d : Device) (reg : UInt8) :
    ∃ results, (d.si5351aReadReg reg).2.2 = { d with results } := by
  unfold si5351aReadReg
  dsimp only
  split <;> exact d.result_touches

theorem si5351aWriteReg_touches (d : Device) (reg value : UInt8) :
    ∃ si5351aRegs results,
      (d.si5351aWriteReg reg value).2 = { d with si5351aRegs, results } := by
  obtain ⟨results, hr⟩ := d.result_touches
  unfold si5351aWriteReg
  dsimp only
  rw [hr]
  split
  · exact ⟨d.si5351aRegs, results, rfl⟩
  · exact ⟨_, results, rfl⟩

theorem si5351aEnableOutput_touches (d : Device) (output : UInt8) (enable : Bool) :
    ∃ si5351aRegs results,
      (d.si5351aEnableOutput output enable).2 = { d with si5351aRegs, results } := by
  obtain ⟨results, hr⟩ := d.si5351aReadReg_touches outputEnableControl
  unfold si5351aEnableOutput
  dsimp only
  rw [hr]
  split
  · exact ⟨d.si5351aRegs, d.results, rfl⟩
  · split
    · exact ⟨d.si5351aRegs, results, rfl⟩
    · exact si5351aWriteReg_touches { d with results } _ _

theorem regulatorEnable_touches (d : Device) :
    ∃ regulator results, d.regulatorEnable.2 = { d with regulator, results } := by
  obtain ⟨results, hr⟩ := d.result_touches
  unfold regulatorEnable
  dsimp only
  rw [hr]
  split
  · split
    · exact ⟨d.regulator, results, rfl⟩
    · exact ⟨_, results, rfl⟩
  · exact ⟨_, d.results, rfl⟩

theorem regulatorDisable_touches (d : Device) :
    ∃ regulator results, d.regulatorDisable.2 = { d with regulator, results } := by
  obtain ⟨results, hr⟩ := d.result_touches
  unfold regulatorDisable
  dsimp only
  rw [hr]
  split
  · split
    · exact ⟨d.regulator, results, rfl⟩
    · exact ⟨_, results, rfl⟩
  · exact ⟨_, d.results, rfl⟩

/-! ## Relays -/

/-- `tr_set_tx`. -/
def trSetTx (d : Device) : Device := { d with trFwd := true, trBwd := false, txActive := true }

/-- `tr_set_rx`. -/
def trSetRx (d : Device) : Device := { d with trFwd := false, trBwd := true, txActive := false }

/-! ## Boot -/

/--
The device when `main` has initialised it. `si5351a_enable_output` has cleared one
bit of a register set to `0xFF`, and `regulator_disable` has been called once. The
console starts empty.
-/
def boot (si5351aRegs : UInt8 → UInt8) (rtcTime : RtcTime) (microvolt : Int)
    (results : List Int) : Device where
  baseFrequency := 10136000 * 100
  txActive := false
  trFwd := false
  trBwd := true
  activeSeq := none
  engineActive := false
  txTimer := none
  txWork := false
  regulator := { refcnt := -1, outputOn := false, microvolt }
  si5351aRegs := fun r => if r = outputEnableControl then 0xFE else si5351aRegs r
  rtcTime
  results
  out := []
  started := none
  applied := []
  expiries := 0

end Device

end MiniHF
