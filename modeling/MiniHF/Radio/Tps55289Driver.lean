import MiniHF.Radio.Device
import MiniHF.Radio.I2c
import MiniHF.Radio.Tps55289

/-!
# The driver of the regulator on its chip

What `regulator_tps55289.c` does to the output and the voltage, down to the registers,
and the regulator core over it, which counts users and calls the driver for the first
and the last. The output is switched by one bit of a register that has other settings,
too. Which voltages the core lets through is its own matter: `refuses minUv maxUv` is
whether it turns a window down.
-/

namespace MiniHF

/-- `struct tps55289_config`. -/
structure Tps55289Dts extends Tps55289Config where
  slewRateMvUs : UInt32
  discharge : Bool
deriving DecidableEq, Repr

/-- The chip, and the use count of `struct regulator_common_data`. -/
structure Tps55289Driver extends I2cChip where
  refcnt : Int

namespace Tps55289Driver

open Tps55289

def regVoutSr : UInt8 := 0x03
def regVoutFs : UInt8 := 0x04
def regMode : UInt8 := 0x06
def regStatus : UInt8 := 0x07

def modeOe : UInt8 := (1 : UInt8) <<< 7
def modeHiccup : UInt8 := (1 : UInt8) <<< 5
def modeDischg : UInt8 := (1 : UInt8) <<< 4
def fsFbSel : UInt8 := (1 : UInt8) <<< 7

/-! ## The bus -/

/-- The status is the chip's own. -/
def volatile (reg : UInt8) : Bool := reg = regStatus

/-- `i2c_reg_read_byte_dt`. -/
def regReadByte (d : Tps55289Driver) (reg : UInt8) : Int × UInt8 × Tps55289Driver :=
  let (ret, value, toI2cChip) := d.toI2cChip.writeReadDt volatile reg
  (ret, value, { d with toI2cChip })

/-- `i2c_reg_write_byte_dt`. -/
def regWriteByte (d : Tps55289Driver) (reg value : UInt8) : Int × Tps55289Driver :=
  let (ret, toI2cChip) := d.toI2cChip.writeDt [reg, value]
  (ret, { d with toI2cChip })

/-- `i2c_reg_update_byte_dt`; a register that has the value already is not written. -/
def regUpdateByte (d : Tps55289Driver) (reg mask value : UInt8) : Int × Tps55289Driver :=
  let (ret, oldValue, d) := d.regReadByte reg
  if ret ≠ 0 then (ret, d)
  else
    let newValue := (oldValue &&& ~~~mask) ||| (value &&& mask)
    if newValue = oldValue then (0, d) else d.regWriteByte reg newValue

/-- The messages of a call go out one after another. -/
def carryOut (call : Tps55289 → Int × Tps55289) (d : Tps55289Driver) : Int × Tps55289Driver :=
  let (ret, after) := call { results := d.transfers.map (·.ret), sent := [] }
  (ret, { d with toI2cChip := d.toI2cChip.sendAll after.sent })

/-! ## The driver -/

/-- `tps55289_enable`. -/
def enable (d : Tps55289Driver) : Int × Tps55289Driver := d.regUpdateByte regMode modeOe modeOe

/-- `tps55289_disable`. -/
def disable (d : Tps55289Driver) : Int × Tps55289Driver := d.regUpdateByte regMode modeOe 0

/-- `tps55289_set_voltage`. -/
def setVoltage (d : Tps55289Driver) (cfg : Tps55289Dts) (minUv maxUv : Int32) :
    Int × Tps55289Driver :=
  d.carryOut fun bus => bus.setVoltage cfg.toTps55289Config minUv maxUv

/-- `tps55289_init`. Whether the writes have succeeded is not looked at. -/
def init (d : Tps55289Driver) (cfg : Tps55289Dts) (deviceIsReady : Bool) : Int × Tps55289Driver :=
  if deviceIsReady = false then (-19, d)
  else
    let fsVal := (if cfg.externalFb then fsFbSel else 0) ||| (cfg.intFbRatio &&& 0x03)
    let (_, d) := d.regWriteByte regVoutFs fsVal
    let srBits : UInt8 :=
      if cfg.slewRateMvUs ≥ 10000 then 3
      else if cfg.slewRateMvUs ≥ 5000 then 2
      else if cfg.slewRateMvUs ≥ 2500 then 1
      else 0
    let (_, d) := d.regWriteByte regVoutSr srBits
    let modeVal := (if cfg.discharge then modeDischg else 0) ||| modeHiccup
    let (_, d) := d.regWriteByte regMode modeVal
    (0, d)

/-! ## The regulator core -/

/-- `regulator_enable`: the driver is called when the use count becomes 1. -/
def regulatorEnable (d : Tps55289Driver) : Int × Tps55289Driver :=
  let refcnt := d.refcnt + 1
  if refcnt = 1 then
    let (ret, d) := d.enable
    if ret < 0 then (ret, d) else (ret, { d with refcnt })
  else (0, { d with refcnt })

/-- `regulator_disable`: the driver is called when the use count becomes 0. -/
def regulatorDisable (d : Tps55289Driver) : Int × Tps55289Driver :=
  let refcnt := d.refcnt - 1
  if refcnt = 0 then
    let (ret, d) := d.disable
    if ret < 0 then (ret, d) else (ret, { d with refcnt })
  else (0, { d with refcnt })

/-- `regulator_set_voltage`: the driver is not called for a window that the core refuses. -/
def regulatorSetVoltage (d : Tps55289Driver) (refuses : Int32 → Int32 → Bool) (cfg : Tps55289Dts)
    (minUv maxUv : Int32) : Int × Tps55289Driver :=
  if refuses minUv maxUv then (-22, d) else d.setVoltage cfg minUv maxUv

end Tps55289Driver

/-! ## Calls of the regulator -/

/-- The calls that change the regulator. -/
inductive RegulatorCall where
  | enable
  | disable
  | setVoltage (uv : Int32)
deriving DecidableEq, Repr

/-- A call on the chip. -/
def Tps55289Driver.exec (refuses : Int32 → Int32 → Bool) (cfg : Tps55289Dts) (d : Tps55289Driver) :
    RegulatorCall → Int × Tps55289Driver
  | .enable => d.regulatorEnable
  | .disable => d.regulatorDisable
  | .setVoltage uv => d.regulatorSetVoltage refuses cfg uv uv

/-- The same call on the regulator of the device. -/
def Device.regulatorCall (d : Device) : RegulatorCall → Int × Device
  | .enable => d.regulatorEnable
  | .disable => d.regulatorDisable
  | .setVoltage uv => d.regulatorSetVoltage uv.toInt

/-- What has been called and returned, and the chip then. -/
structure ChipRun where
  returned : List (RegulatorCall × Int)
  chip : Tps55289Driver

/-- What has been called and returned, and the device then. -/
structure RegulatorRun where
  returned : List (RegulatorCall × Int)
  device : Device

/-- A call, and the transfers it meets with. -/
def chipStep (refuses : Int32 → Int32 → Bool) (cfg : Tps55289Dts) (s : ChipRun)
    (e : RegulatorCall × List Transfer) : ChipRun :=
  let (ret, chip) := { s.chip with transfers := e.2 }.exec refuses cfg e.1
  { returned := s.returned ++ [(e.1, ret)], chip }

/-- A call, and what the driver returns if it is called, or the core if it refuses. -/
def regulatorStep (s : RegulatorRun) (e : RegulatorCall × Int) : RegulatorRun :=
  let (ret, device) := { s.device with results := [e.2] }.regulatorCall e.1
  { returned := s.returned ++ [(e.1, ret)], device }

end MiniHF
