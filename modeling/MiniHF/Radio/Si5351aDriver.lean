import MiniHF.Radio.I2c
import MiniHF.Radio.Si5351aPll

/-!
# The driver of the clock generator on its chip

All of `clock_si5351a.c`, down to the registers of the chip.

The calls that only write are those of `Si5351a` and `Si5351aPlls`, and their
messages go out to the chip one after another.
-/

namespace MiniHF

open I2cChip

/-- `struct si5351a_status`. -/
structure Si5351aStatus where
  sysInit : UInt8
  lolB : UInt8
  lolA : UInt8
  los : UInt8
  revid : UInt8
deriving DecidableEq, Repr

/-- `struct si5351a_int_status`. -/
structure Si5351aIntStatus where
  sysInitStky : UInt8
  lolBStky : UInt8
  lolAStky : UInt8
  losStky : UInt8
deriving DecidableEq, Repr

/-- `struct si5351a_config`. -/
structure Si5351aDts extends Si5351aConfig where
  crystalLoadCapacitance : UInt32
deriving DecidableEq, Repr

/-- `struct si5351a_data`, and the chip. -/
structure Si5351aDriver extends I2cChip where
  initialised : Bool
  pllaConfigured : Bool
  pllaFreq : UInt32
  pllbConfigured : Bool
  pllbFreq : UInt32
  devStatus : Si5351aStatus
  devIntStatus : Si5351aIntStatus

namespace Si5351aDriver

/-! ## The bus -/

/-- `i2c_write_dt`. -/
def i2cWriteDt (d : Si5351aDriver) (buf : List UInt8) : Int × Si5351aDriver :=
  let (ret, toI2cChip) := d.toI2cChip.writeDt buf
  (ret, { d with toI2cChip })

/-- `si5351a_DEVICE_STATUS` and `si5351a_INTERRUPT_STATUS` are the chip's own. -/
def volatile (reg : UInt8) : Bool := reg = 0 ∨ reg = 1

/-- `i2c_write_read_dt` of one register. -/
def i2cWriteReadDt (d : Si5351aDriver) (reg : UInt8) : Int × UInt8 × Si5351aDriver :=
  let (ret, value, toI2cChip) := d.toI2cChip.writeReadDt volatile reg
  (ret, value, { d with toI2cChip })

/-- `si5351a_write_reg`. -/
def writeReg (d : Si5351aDriver) (reg value : UInt8) : Int × Si5351aDriver :=
  d.i2cWriteDt [reg, value]

/-- `si5351a_read_reg`. -/
def readReg (d : Si5351aDriver) (reg : UInt8) : Int × UInt8 × Si5351aDriver :=
  d.i2cWriteReadDt reg

/-! ## Init -/

/-- `si5351a_REGISTER_149_SPREAD_SPECTRUM_PARAMETERS`. -/
def spreadSpectrumParameters : UInt8 := 149

/-- `si5351a_enable_spread_spectrum`. -/
def enableSpreadSpectrum (d : Si5351aDriver) (enable : Bool) : Int × Si5351aDriver :=
  let (ret, regVal, d) := d.readReg spreadSpectrumParameters
  if ret ≠ 0 then (ret, d)
  else
    let regVal := if enable then regVal ||| 0x80 else regVal &&& ~~~0x80
    d.writeReg spreadSpectrumParameters regVal

/-- The loop of `si5351a_init` that waits for the chip. The last read is made for nothing: the
count has run out before its value is looked at. -/
def waitReady (d : Si5351aDriver) : Nat → Int × Si5351aDriver
  | 0 => (-116, d)
  | retries + 1 =>
      let (_, statusReg, d) := d.readReg 0
      if retries = 0 then (-116, d)
      else if statusReg >>> 7 = 1 then waitReady d retries
      else (0, d)

/-- The loop of `si5351a_init` over `clk_regs`. -/
def writeEach (d : Si5351aDriver) (value : UInt8) : List UInt8 → Int × Si5351aDriver
  | [] => (0, d)
  | reg :: regs =>
      let (ret, d) := d.writeReg reg value
      if ret < 0 then (ret, d) else writeEach d value regs

/-- `clk_regs`. -/
def clkRegs : List UInt8 := [16, 17, 18, 19, 20, 21, 22, 23]

/-- `si5351a_REGISTER_3_OUTPUT_ENABLE_CONTROL`. -/
def outputEnableControl : UInt8 := 3

/-- `si5351a_REGISTER_183_CRYSTAL_INTERNAL_LOAD_CAPACITANCE`. -/
def crystalLoad : UInt8 := 183

/-- `si5351a_CRYSTAL_LOAD_6PF` and its kin. -/
def crystalLoadBits (capacitance : UInt32) : Option UInt8 :=
  if capacitance = 6 then some ((1 : UInt8) <<< 6)
  else if capacitance = 8 then some ((2 : UInt8) <<< 6)
  else if capacitance = 10 then some ((3 : UInt8) <<< 6)
  else none

/-- `si5351a_init`. Whether the load capacitance and the spread spectrum have been written is not
looked at. -/
def init (d : Si5351aDriver) (cfg : Si5351aDts) (i2cIsReady : Bool) : Int × Si5351aDriver :=
  if i2cIsReady = false then (-19, d)
  else
    let (ret, d) := d.waitReady 1000
    if ret ≠ 0 then (ret, d)
    else
      let (ret, d) := d.writeReg outputEnableControl 0xFF
      if ret < 0 then (ret, d)
      else
        let (ret, d) := d.writeEach 0x80 clkRegs
        if ret < 0 then (ret, d)
        else
          match crystalLoadBits cfg.crystalLoadCapacitance with
          | none => (-22, d)
          | some load =>
              let (_, d) := d.writeReg crystalLoad load
              let (_, d) := d.enableSpreadSpectrum false
              (0, { d with
                pllaConfigured := false, pllbConfigured := false, pllaFreq := 0, pllbFreq := 0
                initialised := true })

/-! ## Status -/

/-- `si5351a_update_sys_status`. -/
def updateSysStatus (d : Si5351aDriver) : Int × Si5351aDriver :=
  let (ret, regVal, d) := d.readReg 0
  if ret ≠ 0 then (ret, d)
  else (0, { d with devStatus := {
    sysInit := regVal >>> 7 &&& 0x01
    lolB := regVal >>> 6 &&& 0x01
    lolA := regVal >>> 5 &&& 0x01
    los := regVal >>> 4 &&& 0x01
    revid := regVal &&& 0x03 } })

/-- `si5351a_update_int_status`. -/
def updateIntStatus (d : Si5351aDriver) : Int × Si5351aDriver :=
  let (ret, regVal, d) := d.readReg 1
  if ret ≠ 0 then (ret, d)
  else (0, { d with devIntStatus := {
    sysInitStky := regVal >>> 7 &&& 0x01
    lolBStky := regVal >>> 6 &&& 0x01
    lolAStky := regVal >>> 5 &&& 0x01
    losStky := regVal >>> 4 &&& 0x01 } })

/-- `si5351a_update_status`. -/
def updateStatus (d : Si5351aDriver) : Int × Si5351aDriver :=
  let (ret, d) := d.updateSysStatus
  if ret ≠ 0 then (ret, d) else d.updateIntStatus

/-! ## PLLs and outputs -/

/-- `si5351a_reset_pll`. -/
def resetPll (d : Si5351aDriver) (resetA resetB : Bool) : Int × Si5351aDriver :=
  let regVal : UInt8 := 0
  let regVal := if resetA then regVal ||| ((1 : UInt8) <<< 5) else regVal
  let regVal := if resetB then regVal ||| ((1 : UInt8) <<< 7) else regVal
  d.writeReg 177 regVal

/-- The data and the bus as the calls that only write see them. -/
def bus (d : Si5351aDriver) : Si5351aPlls where
  pllaFreq := d.pllaFreq
  pllbFreq := d.pllbFreq
  results := d.transfers.map (·.ret)
  sent := []
  pllaConfigured := d.pllaConfigured
  pllbConfigured := d.pllbConfigured

/-- The messages of a call go out one after another. -/
def carryOut (call : Si5351aPlls → Int × Si5351aPlls) (d : Si5351aDriver) : Int × Si5351aDriver :=
  let (ret, after) := call d.bus
  (ret, { d with
    toI2cChip := d.toI2cChip.sendAll after.sent
    pllaFreq := after.pllaFreq, pllbFreq := after.pllbFreq
    pllaConfigured := after.pllaConfigured, pllbConfigured := after.pllbConfigured })

section Calls

variable (floor128 : UInt32 → UInt32 → Nat) (pllHz : UInt32 → UInt32 → UInt32 → UInt32 → UInt32)

/-- `si5351a_set_pll`. -/
def setPll (d : Si5351aDriver) (cfg : Si5351aDts) (pll : UInt8) (a b c : UInt32) :
    Int × Si5351aDriver :=
  d.carryOut fun bus => bus.setPll floor128 pllHz cfg.toSi5351aConfig pll a b c

/-- `si5351a_set_pll_freq`. -/
def setPllFreq (d : Si5351aDriver) (cfg : Si5351aDts) (pll : UInt8) (freq : UInt32) :
    Int × Si5351aDriver :=
  d.carryOut fun bus => bus.setPllFreq floor128 pllHz cfg.toSi5351aConfig pll freq

/-- `si5351a_set_ms`. -/
def setMs (d : Si5351aDriver) (ms : UInt8) (a b c : UInt32) (pll : UInt8) : Int × Si5351aDriver :=
  d.carryOut fun bus =>
    let (ret, toSi5351a) := bus.toSi5351a.setMs floor128 ms a b c pll
    (ret, { bus with toSi5351a })

/-- `si5351a_set_ms_freq`. -/
def setMsFreq (d : Si5351aDriver) (ms : UInt8) (freqHz freqMillihz : UInt32) (pll : UInt8) :
    Int × Si5351aDriver :=
  d.carryOut fun bus =>
    let (ret, toSi5351a) := bus.toSi5351a.setMsFreq floor128 ms freqHz freqMillihz pll
    (ret, { bus with toSi5351a })

end Calls

/-- `si5351a_enable_output`; a set bit disables the output. -/
def enableOutput (d : Si5351aDriver) (output : UInt8) (enable : Bool) : Int × Si5351aDriver :=
  if output > 7 then (-22, d)
  else
    let (ret, regVal, d) := d.readReg outputEnableControl
    if ret ≠ 0 then (ret, d)
    else
      let regVal := if enable then regVal &&& ~~~(1 <<< output) else regVal ||| (1 <<< output)
      d.writeReg outputEnableControl regVal

end Si5351aDriver

/-! ## The driver as a system -/

/-- A call of the driver. -/
inductive Si5351aCall where
  | init (i2cIsReady : Bool)
  | setPll (pll : UInt8) (a b c : UInt32)
  | setPllFreq (pll : UInt8) (freq : UInt32)
  | setMs (ms : UInt8) (a b c : UInt32) (pll : UInt8)
  | setMsFreq (ms : UInt8) (freqHz freqMillihz : UInt32) (pll : UInt8)
  | resetPll (resetA resetB : Bool)
  | enableOutput (output : UInt8) (enable : Bool)
  | enableSpreadSpectrum (enable : Bool)
  | updateStatus
deriving DecidableEq, Repr

namespace Si5351aDriver

variable (floor128 : UInt32 → UInt32 → Nat) (pllHz : UInt32 → UInt32 → UInt32 → UInt32 → UInt32)
  (cfg : Si5351aDts)

/-- What a call returns and leaves. -/
def exec (d : Si5351aDriver) : Si5351aCall → Int × Si5351aDriver
  | .init i2cIsReady => d.init cfg i2cIsReady
  | .setPll pll a b c => d.setPll floor128 pllHz cfg pll a b c
  | .setPllFreq pll freq => d.setPllFreq floor128 pllHz cfg pll freq
  | .setMs ms a b c pll => d.setMs floor128 ms a b c pll
  | .setMsFreq ms freqHz freqMillihz pll => d.setMsFreq floor128 ms freqHz freqMillihz pll
  | .resetPll resetA resetB => d.resetPll resetA resetB
  | .enableOutput output enable => d.enableOutput output enable
  | .enableSpreadSpectrum enable => d.enableSpreadSpectrum enable
  | .updateStatus => d.updateStatus

/-- A call, and the transfers it meets with. -/
def call (d : Si5351aDriver) (e : Si5351aCall × List Transfer) : Int × Si5351aDriver :=
  { d with transfers := e.2 }.exec floor128 pllHz cfg e.1

def step (d : Si5351aDriver) (e : Si5351aCall × List Transfer) : Si5351aDriver :=
  (d.call floor128 pllHz cfg e).2

end Si5351aDriver

end MiniHF
