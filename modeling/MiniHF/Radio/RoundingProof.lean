import MiniHF.Lib.Doubles
import MiniHF.Radio.PllFreqProof

/-!
# What the driver works out in doubles

Two expressions of the driver are in doubles. `floor(128 * ((double)b / (double)c))` is
the quotient of whole numbers: a fraction over `c` keeps so far away from the next whole
number that rounding does not matter. `(uint32_t)(xtal_freq * (a + (double)b / c))` is
rounded three times, and may come out one hertz low. For a frequency that a PLL can have
and the denominators that `si5351a_set_pll_freq` picks it is never too high.
-/

namespace MiniHF.Si5351aPlls

open Doubles Si5351a

/-! ## The quotient -/

/-- `floor(128 * ((double)b / (double)c))`. -/
def doubleFloor128 (b c : UInt32) : Nat :=
  ⌊double (128 * double ((b.toNat : Rat) / c.toNat))⌋₊

/-- **The quotient is what it says.** -/
theorem exact_doubleFloor128 : Exact128 doubleFloor128 := by
  intro b c
  rw [doubleFloor128]
  rcases Nat.eq_zero_or_pos c.toNat with hzero | hc
  · rw [hzero, Nat.div_zero, Nat.cast_zero, div_zero, double_zero, mul_zero, double_zero,
      Nat.floor_zero]
  have hc' : (0 : Rat) < c.toNat := Nat.cast_pos.mpr hc
  have hb := b.toNat_lt
  refine floor_fraction hc ?_ fun hwhole => ?_
  · -- two roundings of a number below `2 ^ 39 / c`
    have hquot : (0 : Rat) ≤ (b.toNat : Rat) / c.toNat := by positivity
    have hinner := nearest_double ((b.toNat : Rat) / c.toNat)
    have hscaled : |128 * double ((b.toNat : Rat) / c.toNat) - 128 * ((b.toNat : Rat) / c.toNat)|
        ≤ 1 / 2 ^ 53 * (128 * ((b.toNat : Rat) / c.toNat)) := by
      rw [← mul_sub, abs_mul, abs_of_nonneg (by norm_num : (0 : Rat) ≤ 128)]
      rw [abs_of_nonneg hquot] at hinner
      linarith
    have hdrift := nearest_double.drift (by positivity) hscaled
    have hshape : ((128 * b.toNat : Nat) : Rat) / c.toNat = 128 * ((b.toNat : Rat) / c.toNat) := by
      push_cast
      ring
    rw [hshape]
    refine lt_of_le_of_lt hdrift ?_
    have hb' : (b.toNat : Rat) < 4294967296 := by exact_mod_cast hb
    rw [← mul_assoc, ← mul_div_assoc, div_lt_div_iff_of_pos_right hc']
    norm_num
    linarith
  · -- a whole number of 128ths
    obtain ⟨n, hn⟩ := Nat.dvd_of_mod_eq_zero hwhole
    have hsmall : n < 2 ^ 53 := by
      have hle : n ≤ c.toNat * n := Nat.le_mul_of_pos_left n hc
      omega
    have hvalue : (128 : Rat) * b.toNat = c.toNat * n := by exact_mod_cast hn
    have hquot : (b.toNat : Rat) / c.toNat = (n : Rat) / 2 ^ 7 := by
      rw [div_eq_div_iff hc'.ne' (by positivity)]
      linarith
    have hback : (128 : Rat) * ((n : Rat) / 2 ^ 7) = (n : Rat) / 2 ^ 0 := by ring
    rw [hquot, double_dyadic hsmall, hback, double_dyadic hsmall, hn, pow_zero, div_one]
    push_cast
    exact (mul_div_cancel_left₀ _ hc'.ne').symm

/-! ## The frequency -/

/-- `(uint32_t)(xtal_freq * (a + (double)b / c))` is what it says but for the rounding of each of
its three operations, as long as it has 32 bits. -/
def RoundedHz (pllHz : UInt32 → UInt32 → UInt32 → UInt32 → UInt32) : Prop :=
  ∃ round : Rat → Rat, Nearest round ∧ ∀ xtal a b c : UInt32, c ≠ 0 →
    round (xtal.toNat * round (a.toNat + round (b.toNat / c.toNat))) < 4294967296 →
      (pllHz xtal a b c).toNat
        = ⌊round (xtal.toNat * round (a.toNat + round (b.toNat / c.toNat)))⌋₊

/-- `(uint32_t)(xtal_freq * (a + (double)b / c))`. -/
def doubleHz (xtal a b c : UInt32) : UInt32 :=
  UInt32.ofNat ⌊double (xtal.toNat * double (a.toNat + double ((b.toNat : Rat) / c.toNat)))⌋₊

/-- **Doubles are rounded so.** -/
theorem rounded_doubleHz : RoundedHz doubleHz := by
  refine ⟨double, nearest_double, fun xtal a b c _ hlt => ?_⟩
  rw [doubleHz, UInt32.toNat_ofNat']
  refine Nat.mod_eq_of_lt ?_
  rw [Nat.floor_lt' (by decide)]
  exact_mod_cast hlt

/-- **The frequency is at most a hertz low**, and never too high. -/
theorem RoundedHz.near {pllHz : UInt32 → UInt32 → UInt32 → UInt32 → UInt32} (h : RoundedHz pllHz)
    {xtal a b c : UInt32} (hc : 0 < c.toNat) (hmillion : c.toNat ≤ 1000000)
    (hslow : (xtal.toNat : Rat) * (a.toNat + b.toNat / c.toNat) ≤ 900000000) :
    ((pllHz xtal a b c).toNat : Rat) ≤ xtal.toNat * (a.toNat + b.toNat / c.toNat)
      ∧ (xtal.toNat : Rat) * (a.toNat + b.toNat / c.toNat) < (pllHz xtal a b c).toNat + 2 := by
  obtain ⟨round, hnear, hhz⟩ := h
  have hc' : (0 : Rat) < c.toNat := Nat.cast_pos.mpr hc
  have hdrift := hnear.mul_add (Nat.cast_nonneg xtal.toNat) (Nat.cast_nonneg a.toNat)
    (div_nonneg (Nat.cast_nonneg b.toNat) hc'.le)
  have hvalue := hhz xtal a b c (by
    rintro rfl
    exact absurd hc (Nat.lt_irrefl 0))
  have hfraction : (xtal.toNat : Rat) * (a.toNat + b.toNat / c.toNat)
      = ((xtal.toNat * (a.toNat * c.toNat + b.toNat) : Nat) : Rat) / c.toNat := by
    push_cast
    field_simp
  have hpos : 0 ≤ (xtal.toNat : Rat) * (a.toNat + b.toNat / c.toNat) := by positivity
  generalize round (xtal.toNat * round (a.toNat + round (b.toNat / c.toNat))) = v at hdrift hvalue
  generalize (xtal.toNat : Rat) * (a.toNat + b.toNat / c.toNat) = made at *
  obtain ⟨hlow, hhigh⟩ := abs_le.mp hdrift
  have hmillionth : (1 : Rat) / 1000000 ≤ 1 / c.toNat :=
    one_div_le_one_div_of_le hc' (by exact_mod_cast hmillion)
  have hv : 0 ≤ v := by linarith
  rw [hvalue (by linarith)]
  constructor
  · -- rounded up it still is below the next fraction over `c`
    rw [hfraction]
    refine floor_le_fraction hc hv ?_
    rw [add_div, ← hfraction]
    linarith
  · -- less than a hertz is cut off, and less than another one rounded off
    have hcut := Nat.lt_floor_add_one v
    linarith

/-- A frequency that comes out a hertz low. -/
example : doubleHz 25000000 32 7 1000000 = 800000174 := by decide +kernel

end MiniHF.Si5351aPlls
