import MiniHF.Radio.Si5351a

/-!
# The PLLs of the clock generator

A PLL runs at a multiple `a + b / c` of the crystal's frequency. `si5351a_set_pll`
writes the multiple in the same eight bytes as a divider of an output, and after a
successful write the driver remembers that the PLL is set up and its frequency.
`si5351a_set_pll_freq` looks for the multiple of a frequency.

`pllHz xtal a b c` is what the source gets for
`(uint32_t)(xtal_freq * (a + (double)b / c))`.
-/

namespace MiniHF

/-- `struct si5351a_config`, as far as the PLLs go. -/
structure Si5351aConfig where
  xtalFreq : UInt32
deriving DecidableEq, Repr

/-- `struct si5351a_data` with what it says about the PLLs. -/
structure Si5351aPlls extends Si5351a where
  pllaConfigured : Bool
  pllbConfigured : Bool
deriving DecidableEq, Repr

namespace Si5351aPlls

open Si5351a

variable (floor128 : UInt32 → UInt32 → Nat) (pllHz : UInt32 → UInt32 → UInt32 → UInt32 → UInt32)

/-- `si5351a_set_pll`. -/
def setPll (d : Si5351aPlls) (cfg : Si5351aConfig) (pll : UInt8) (a b c : UInt32) :
    Int × Si5351aPlls :=
  if pll ≠ pllA ∧ pll ≠ pllB then (-22, d)
  else if a < 15 ∨ a > 90 then (-22, d)
  else if b > 1048574 then (-22, d)
  else if c = 0 then (-22, d)
  else
    let regBase : UInt8 := if pll = pllA then 26 else 34
    let (ret, bus) := d.toSi5351a.writeMultiple regBase (dividerBytes floor128 a b c)
    let d := { d with toSi5351a := bus }
    if ret ≠ 0 then (ret, d)
    else
      let freq := pllHz cfg.xtalFreq a b c
      if pll = pllA then (0, { d with pllaConfigured := true, pllaFreq := freq })
      else (0, { d with pllbConfigured := true, pllbFreq := freq })

/-- `si5351a_PLL_VCO_MIN`. -/
def pllVcoMin : UInt64 := 600000000

/-- `si5351a_PLL_VCO_MAX`. -/
def pllVcoMax : UInt64 := 900000000

/-- `si5351a_set_pll_freq`. -/
def setPllFreq (d : Si5351aPlls) (cfg : Si5351aConfig) (pll : UInt8) (freq : UInt32) :
    Int × Si5351aPlls :=
  if freq.toUInt64 < pllVcoMin ∨ freq.toUInt64 > pllVcoMax then (-22, d)
  else
    let a := freq / cfg.xtalFreq
    let remainder := freq.toUInt64 % cfg.xtalFreq.toUInt64
    if remainder = 0 then d.setPll floor128 pllHz cfg pll a 0 1
    else
      let c := rfracDenom.toUInt32
      let b := ((remainder * c.toUInt64) / cfg.xtalFreq.toUInt64).toUInt32
      d.setPll floor128 pllHz cfg pll a b c

end Si5351aPlls

end MiniHF
