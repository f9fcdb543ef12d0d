/-!
# The clock generator

The driver of the Si5351A remembers the frequency of each PLL and sets an output
by writing a divider `a + b / c` into eight registers, in the form the chip wants:
`p1`, `p2` and `p3`. Every write is one message on the bus, the register first.
A message may fail, and whether it does is taken from `results`; an empty list
stands for success from then on. `sent` has every message that was put on the bus,
also those that failed.

`floor128 b c` is what the source gets for `floor(128 * ((double)b / (double)c))`.
-/

namespace MiniHF

/-- `struct si5351a_data`, and the bus the chip is on. -/
structure Si5351a where
  pllaFreq : UInt32
  pllbFreq : UInt32
  /-- What the next messages return. -/
  results : List Int
  /-- The messages so far: a register and the bytes for it and the ones behind it. -/
  sent : List (List UInt8)
deriving DecidableEq, Repr

namespace Si5351a

/-! ## The bus -/

/-- `i2c_write_dt`. -/
def i2cWrite (d : Si5351a) (buf : List UInt8) : Int × Si5351a :=
  let sent := d.sent ++ [buf]
  match d.results with
  | [] => (0, { d with sent })
  | ret :: results => (ret, { d with results, sent })

/-- `si5351a_write_reg`. -/
def writeReg (d : Si5351a) (reg value : UInt8) : Int × Si5351a := d.i2cWrite [reg, value]

/-- `si5351a_write_multiple`. -/
def writeMultiple (d : Si5351a) (startReg : UInt8) (values : List UInt8) : Int × Si5351a :=
  d.i2cWrite (startReg :: values)

/-! ## Dividers -/

section Divider

variable (floor128 : UInt32 → UInt32 → Nat)

def dividerP1 (a b c : UInt32) : UInt32 :=
  if b = 0 then 128 * a - 512
  else UInt32.ofInt ((128 * a).toNat + floor128 b c - 512)

def dividerP2 (b c : UInt32) : UInt32 :=
  if b = 0 then b else UInt32.ofInt ((128 * b).toNat - c.toNat * floor128 b c)

/-- `reg_vals`: `p1`, `p2` and `p3 = c`, scattered over eight registers. -/
def dividerBytes (a b c : UInt32) : List UInt8 :=
  let p1 := dividerP1 floor128 a b c
  let p2 := dividerP2 floor128 b c
  let p3 := c
  [((p3 &&& 0x0000FF00) >>> 8).toUInt8,
   (p3 &&& 0x000000FF).toUInt8,
   ((p1 &&& 0x00030000) >>> 16).toUInt8,
   ((p1 &&& 0x0000FF00) >>> 8).toUInt8,
   (p1 &&& 0x000000FF).toUInt8,
   (((p3 &&& 0x000F0000) >>> 12) ||| ((p2 &&& 0x000F0000) >>> 16)).toUInt8,
   ((p2 &&& 0x0000FF00) >>> 8).toUInt8,
   (p2 &&& 0x000000FF).toUInt8]

/-! ## Outputs -/

def pllA : UInt8 := 'A'.toUInt8
def pllB : UInt8 := 'B'.toUInt8

/-- `clk_ctrl`: the multisynth itself at 8 mA, the PLL, and integer mode. -/
def clkCtrl (b : UInt32) (pll : UInt8) : UInt8 :=
  let clkCtrl := ((3 : UInt8) <<< 2) ||| 0x03
  let clkCtrl := if pll = pllB then clkCtrl ||| ((1 : UInt8) <<< 5) else clkCtrl
  if b = 0 then clkCtrl ||| ((1 : UInt8) <<< 6) else clkCtrl

/-- `si5351a_set_ms`. -/
def setMs (d : Si5351a) (ms : UInt8) (a b c : UInt32) (pll : UInt8) : Int × Si5351a :=
  if ms > 7 then (-22, d)
  else if a < 6 ∨ a > 1800 then (-22, d)
  else if b > 1048574 then (-22, d)
  else if c = 0 then (-22, d)
  else if pll ≠ pllA ∧ pll ≠ pllB then (-22, d)
  else
    let (ret, d) := d.writeMultiple (42 + ms * 8) (dividerBytes floor128 a b c)
    if ret ≠ 0 then (ret, d) else d.writeReg (16 + ms) (clkCtrl b pll)

/-- `RFRAC_DENOM`. -/
def rfracDenom : UInt64 := 1000000

/-- `pll_freq` of `si5351a_set_ms_freq`. -/
def pllFreq (d : Si5351a) (pll : UInt8) : UInt32 := if pll = pllA then d.pllaFreq else d.pllbFreq

/-- `si5351a_set_ms_freq`. -/
def setMsFreq (d : Si5351a) (ms : UInt8) (freqHz freqMillihz : UInt32) (pll : UInt8) :
    Int × Si5351a :=
  if ms > 7 then (-22, d)
  else if pll ≠ pllA ∧ pll ≠ pllB then (-22, d)
  else if freqMillihz ≥ 1000 then (-22, d)
  else
    let pllFreq := d.pllFreq pll
    if pllFreq = 0 then (-22, d)
    else
      let freqMhz := freqHz.toUInt64 * 1000 + freqMillihz.toUInt64
      if freqMhz = 0 then (-22, d)
      else
        let pllFreqMhz := pllFreq.toUInt64 * 1000
        let a := (pllFreqMhz / freqMhz).toUInt32
        let remainder := pllFreqMhz % freqMhz
        let c := rfracDenom.toUInt32
        let b := ((remainder * c.toUInt64) / freqMhz).toUInt32
        d.setMs floor128 ms a b c pll

end Divider

end Si5351a

end MiniHF
