/-!
# The regulator chip

The driver of the TPS55289 sets a voltage as an 11-bit code of a reference, and a
current limit as a 7-bit code of the voltage over a sense resistor. The output is
divided down to the reference by two resistors or by one of four ratios in the chip.
Every write is one message on the bus, the register first. A message may fail, and
whether it does is taken from `results`; an empty list stands for success from then
on.
-/

namespace MiniHF

/-- `struct tps55289_config`, as far as the two settings go. -/
structure Tps55289Config where
  externalFb : Bool
  rTop : UInt32
  rBottom : UInt32
  rsenseMohm : Int32
  intFbRatio : UInt8
deriving DecidableEq, Repr

/-- The bus the chip is on. -/
structure Tps55289 where
  /-- What the next messages return. -/
  results : List Int
  /-- The messages so far: a register and the bytes for it and the ones behind it. -/
  sent : List (List UInt8)
deriving DecidableEq, Repr

namespace Tps55289

/-- `i2c_burst_write_dt`. -/
def burstWrite (d : Tps55289) (startAddr : UInt8) (buf : List UInt8) : Int × Tps55289 :=
  (d.results.headD 0, { results := d.results.tail, sent := d.sent ++ [startAddr :: buf] })

/-- `i2c_reg_write_byte_dt`. -/
def regWriteByte (d : Tps55289) (regAddr value : UInt8) : Int × Tps55289 :=
  d.burstWrite regAddr [value]

def regRefLsb : UInt8 := 0x00
def regIoutLimit : UInt8 := 0x02

/-- An `int32_t` as a `uint64_t`. -/
def widen (v : Int32) : UInt64 := UInt64.ofInt v.toInt

/-! ## The voltage -/

/-- `ratios_x10000`. -/
def ratiosX10000 : List UInt32 := [2256, 1128, 752, 564]

/-- `CLAMP`. -/
def clamp (val low high : UInt64) : UInt64 :=
  if val ≤ low then low else if val < high then val else high

/-- The reference a voltage is divided down to, in microvolts. -/
def dividedUv (cfg : Tps55289Config) (minUv : Int32) : UInt64 :=
  if cfg.externalFb then
    (widen minUv * cfg.rBottom.toUInt64) / (cfg.rTop + cfg.rBottom).toUInt64
  else (widen minUv * (ratiosX10000.getD (cfg.intFbRatio &&& 0x03).toNat 0).toUInt64) / 10000

/-- `val` of `tps55289_set_voltage`. -/
def voltageVal (cfg : Tps55289Config) (minUv : Int32) : UInt32 :=
  let vrefUv := clamp (dividedUv cfg minUv) 45000 1200000
  (((vrefUv - 45000) * 10) / 5645).toUInt32

/-- `tps55289_set_voltage`. -/
def setVoltage (d : Tps55289) (cfg : Tps55289Config) (minUv _maxUv : Int32) : Int × Tps55289 :=
  let val := voltageVal cfg minUv
  d.burstWrite regRefLsb [(val &&& 0xFF).toUInt8, ((val >>> 8) &&& 0x07).toUInt8]

/-! ## The current limit -/

/-- `tps55289_set_current_limit`. -/
def setCurrentLimit (d : Tps55289) (cfg : Tps55289Config) (minUa _maxUa : Int32) : Int × Tps55289 :=
  if cfg.rsenseMohm ≤ 0 then (-134, d)
  else
    let vLimitUv := ((widen minUa * cfg.rsenseMohm.toUInt32.toUInt64) / 1000).toUInt32
    let val := (vLimitUv / 500).toUInt8
    let val := if val > 127 then 127 else val
    d.regWriteByte regIoutLimit (val ||| 0x80)

end Tps55289

end MiniHF
