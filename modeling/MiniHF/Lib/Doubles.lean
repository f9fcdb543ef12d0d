import Mathlib.Algebra.Order.Floor.Semifield
import Mathlib.Algebra.Order.Round
import Mathlib.Data.Int.Log
import Mathlib.Data.Rat.Floor
import Mathlib.Tactic.FieldSimp
import Mathlib.Tactic.Linarith
import Mathlib.Tactic.Positivity
import Mathlib.Tactic.Ring

/-!
# Rounding to doubles

A double has 53 bits, and an operation on doubles gives the one nearest to the exact
result, which is never off by more than `2 ^ -53` of it. Cut to whole numbers, such a
result can still be wrong by one. It is not where the exact result is a fraction with a
denominator so small that it keeps away from the next whole number.

The exponent has no limits here.
-/

namespace Doubles

/-! ## The nearest double -/

/-- The whole number nearest to `x`; of two, the even one. -/
def nearestEven (x : Rat) : Int :=
  if 2 * Int.fract x < 1 ∨ 2 * Int.fract x = 1 ∧ 2 ∣ ⌊x⌋ then ⌊x⌋ else ⌊x⌋ + 1

/-- How far the doubles around `x` are apart. -/
def ulp (x : Rat) : Rat := 2 ^ (Int.log 2 |x| - 52)

/-- The double nearest to `x`. -/
def double (x : Rat) : Rat := nearestEven (x / ulp x) * ulp x

theorem nearestEven_near (x : Rat) : |(nearestEven x : Rat) - x| ≤ 1 / 2 := by
  have hsplit := Int.floor_add_fract x
  have hlow := Int.fract_nonneg x
  have hhigh := Int.fract_lt_one x
  rw [nearestEven, abs_le]
  split
  · next hdown =>
      have hhalf : 2 * Int.fract x ≤ 1 := hdown.elim le_of_lt fun h => h.1.le
      constructor <;> linarith
  · next hup =>
      have hhalf : 1 ≤ 2 * Int.fract x := not_lt.mp fun h => hup (Or.inl h)
      push_cast
      constructor <;> linarith

theorem nearestEven_natCast (n : Nat) : nearestEven n = n := by
  rw [nearestEven, Int.fract_natCast, Int.floor_natCast, mul_zero, if_pos (Or.inl zero_lt_one)]

theorem double_zero : double 0 = 0 := by
  rw [double, zero_div, show nearestEven 0 = 0 from nearestEven_natCast 0, Int.cast_zero, zero_mul]

theorem ulp_pos (x : Rat) : 0 < ulp x := zpow_pos two_pos _

/-- A double other than zero is `2 ^ 52` of these steps or more. -/
theorem ulp_le {x : Rat} (hx : x ≠ 0) : ulp x * 2 ^ 52 ≤ |x| := by
  have hlog := Int.zpow_log_le_self (b := 2) one_lt_two (abs_pos.mpr hx)
  have hshift : ulp x * 2 ^ 52 = 2 ^ Int.log 2 |x| := by
    rw [ulp, ← zpow_natCast, ← zpow_add₀ two_ne_zero]
    congr 1
    omega
  rw [hshift]
  exact_mod_cast hlog

/-- What rounding is known to do: it is off by no more than `2 ^ -53` of what is rounded. -/
def Nearest (round : Rat → Rat) : Prop := ∀ x, |round x - x| ≤ |x| / 2 ^ 53

/-- **The nearest double is near.** -/
theorem nearest_double : Nearest double := by
  intro x
  rcases eq_or_ne x 0 with rfl | hx
  · rw [double_zero, sub_zero, abs_zero, zero_div]
  have hpos := ulp_pos x
  have hstep := ulp_le hx
  have hhalf := nearestEven_near (x / ulp x)
  have hscaled : double x - x = ((nearestEven (x / ulp x) : Rat) - x / ulp x) * ulp x := by
    rw [double, sub_mul, div_mul_cancel₀ x hpos.ne']
  rw [hscaled, abs_mul, abs_of_pos hpos]
  calc |(nearestEven (x / ulp x) : Rat) - x / ulp x| * ulp x
      ≤ 1 / 2 * ulp x := mul_le_mul_of_nonneg_right hhalf hpos.le
    _ ≤ |x| / 2 ^ 53 := by linarith

/-- A binary fraction of at most 53 bits is a double. -/
theorem double_dyadic {n : Nat} (hn : n < 2 ^ 53) (k : Nat) :
    double ((n : Rat) / 2 ^ k) = (n : Rat) / 2 ^ k := by
  rcases Nat.eq_zero_or_pos n with rfl | hpos
  · rw [Nat.cast_zero, zero_div, double_zero]
  have hx : (0 : Rat) < (n : Rat) / 2 ^ k := div_pos (Nat.cast_pos.mpr hpos) (by positivity)
  have hlog := Int.zpow_log_le_self (b := 2) one_lt_two hx
  -- no bit is behind the last one that counts
  have hlast : Int.log 2 ((n : Rat) / 2 ^ k) < 53 - k := by
    have hlt : (2 : Rat) ^ Int.log 2 ((n : Rat) / 2 ^ k) < 2 ^ ((53 : Int) - k) := by
      refine lt_of_le_of_lt hlog ?_
      rw [zpow_sub₀ two_ne_zero, zpow_natCast]
      exact div_lt_div_of_pos_right (by exact_mod_cast hn) (by positivity)
    exact (zpow_lt_zpow_iff_right₀ one_lt_two).mp hlt
  obtain ⟨m, hm⟩ := Int.eq_ofNat_of_zero_le (show 0 ≤ 52 - Int.log 2 ((n : Rat) / 2 ^ k) - k by omega)
  have hwhole : (n : Rat) / 2 ^ k / ulp ((n : Rat) / 2 ^ k) = (n * 2 ^ m : Nat) := by
    rw [ulp, abs_of_pos hx, div_div, ← zpow_natCast, ← zpow_add₀ two_ne_zero,
      show (k : Int) + (Int.log 2 ((n : Rat) / 2 ^ (k : Int)) - 52) = -(m : Int) by
        rw [zpow_natCast]
        omega,
      zpow_neg, div_inv_eq_mul, zpow_natCast]
    push_cast
    rfl
  rw [double, hwhole, nearestEven_natCast, Int.cast_natCast, ← hwhole]
  exact div_mul_cancel₀ _ (ulp_pos _).ne'

/-! ## Results of several operations -/

section Several

variable {round : Rat → Rat}

/-- How far off a rounded value is when what was rounded was off itself. -/
theorem Nearest.drift (h : Nearest round) {x y e : Rat} (hx : 0 ≤ x) (hy : |y - x| ≤ e * x) :
    |round y - x| ≤ (e + (1 + e) / 2 ^ 53) * x := by
  have hround := h y
  have hsize : |y| ≤ (1 + e) * x := by
    have htri := abs_add_le (y - x) x
    rw [sub_add_cancel, abs_of_nonneg hx] at htri
    linarith
  calc |round y - x| ≤ |round y - y| + |y - x| := abs_sub_le _ _ _
    _ ≤ (1 + e) * x / 2 ^ 53 + e * x := by
        refine add_le_add (hround.trans ?_) hy
        exact div_le_div_of_nonneg_right hsize (by positivity)
    _ = (e + (1 + e) / 2 ^ 53) * x := by ring

/-- **A quotient, a sum and a product**, one after another. -/
theorem Nearest.mul_add (h : Nearest round) {x a q : Rat} (hx : 0 ≤ x) (ha : 0 ≤ a) (hq : 0 ≤ q) :
    |round (x * round (a + round q)) - x * (a + q)| ≤ x * (a + q) / 2 ^ 51 := by
  have hone : |round q - q| ≤ 1 / 2 ^ 53 * q := by
    have hround := h q
    rw [abs_of_nonneg hq] at hround
    linarith
  have hsum : |a + round q - (a + q)| ≤ 1 / 2 ^ 53 * (a + q) := by
    rw [add_sub_add_left_eq_sub]
    refine hone.trans ?_
    linarith
  have htwo := h.drift (add_nonneg ha hq) hsum
  have hproduct : |x * round (a + round q) - x * (a + q)|
      ≤ (1 / 2 ^ 53 + (1 + 1 / 2 ^ 53) / 2 ^ 53) * (x * (a + q)) := by
    rw [← mul_sub, abs_mul, abs_of_nonneg hx]
    calc x * |round (a + round q) - (a + q)|
        ≤ x * ((1 / 2 ^ 53 + (1 + 1 / 2 ^ 53) / 2 ^ 53) * (a + q)) := mul_le_mul_of_nonneg_left htwo hx
      _ = _ := by ring
  have hthree := h.drift (mul_nonneg hx (add_nonneg ha hq)) hproduct
  refine hthree.trans ?_
  have hpos : 0 ≤ x * (a + q) := mul_nonneg hx (add_nonneg ha hq)
  rw [div_eq_inv_mul (x * (a + q))]
  refine mul_le_mul_of_nonneg_right ?_ hpos
  norm_num

end Several

/-! ## Cut to whole numbers -/

/-- A value that is above a fraction by less than its denominator allows is not cut to more. -/
theorem floor_le_fraction {v : Rat} {n c : Nat} (hc : 0 < c) (hv : 0 ≤ v) (h : v < (n + 1) / c) :
    (⌊v⌋₊ : Rat) ≤ (n : Rat) / c := by
  have hc' : (0 : Rat) < c := Nat.cast_pos.mpr hc
  have hlt : (⌊v⌋₊ : Rat) * c < n + 1 := by
    rw [← lt_div_iff₀ hc']
    exact lt_of_le_of_lt (Nat.floor_le hv) h
  rw [le_div_iff₀ hc']
  exact_mod_cast Nat.le_of_lt_succ (by exact_mod_cast hlt)

/-- **A fraction is cut right** if the value is off by less than its denominator allows, and not at
all where the fraction is a whole number. -/
theorem floor_fraction {v : Rat} {n c : Nat} (hc : 0 < c) (h : |v - (n : Rat) / c| < 1 / c)
    (hwhole : n % c = 0 → v = (n : Rat) / c) : ⌊v⌋₊ = n / c := by
  have hc' : (0 : Rat) < c := Nat.cast_pos.mpr hc
  rcases Nat.eq_zero_or_pos (n % c) with hzero | hrest
  · rw [hwhole hzero, Nat.floor_div_eq_div]
  obtain ⟨hlow, hhigh⟩ := abs_lt.mp h
  have hsplit : (n : Rat) = c * (n / c : Nat) + (n % c : Nat) := by
    exact_mod_cast (Nat.div_add_mod n c).symm
  -- the fraction is a `c`th or more away from the whole numbers around it
  have hbelow : ((n / c : Nat) : Rat) ≤ (n : Rat) / c - 1 / c := by
    rw [← sub_div, le_div_iff₀ hc']
    have hone : (1 : Rat) ≤ (n % c : Nat) := by exact_mod_cast hrest
    linarith
  have hv : ((n / c : Nat) : Rat) ≤ v := by linarith
  refine (Nat.floor_eq_iff ((Nat.cast_nonneg _).trans hv)).mpr ⟨hv, ?_⟩
  have hnext : (n : Rat) / c + 1 / c ≤ ((n / c : Nat) : Rat) + 1 := by
    rw [← add_div, div_le_iff₀ hc']
    have hlast : ((n % c : Nat) : Rat) + 1 ≤ c := by exact_mod_cast Nat.mod_lt n hc
    linarith
  linarith

end Doubles
