import MiniHF.Lib.Grid
import MiniHF.Radio.DividerProof

/-!
# The frequency a PLL is set to

The multiple of the crystal's frequency is looked for on a grid of millionths. It is
the grid point below the true multiple, and that point itself where the crystal's
frequency divides the one asked for. A multiple of 15 to 90 fits the registers, so
what the chip reads is the grid point, and what the driver remembers is the
frequency that the chip makes of it, in whole hertz.
-/

namespace MiniHF.Si5351aPlls

open Si5351a

/-- `(uint32_t)(xtal_freq * (a + (double)b / c))` is what it says, as long as it has 32 bits. -/
def ExactHz (pllHz : UInt32 → UInt32 → UInt32 → UInt32 → UInt32) : Prop :=
  ∀ xtal a b c : UInt32, c ≠ 0 →
    (xtal.toNat : Rat) * (a.toNat + b.toNat / c.toNat) < 4294967296 →
      (pllHz xtal a b c).toNat = ⌊(xtal.toNat : Rat) * (a.toNat + b.toNat / c.toNat)⌋₊

/-- Millionths. -/
def millionths : Grid Rat where
  origin := 0
  step := 1 / 1000000
  step_pos := by norm_num

/-- The multiples of `xtal` on the grid. -/
theorem code_millionths {xtal freq : Nat} (hxtal : 0 < xtal) :
    millionths.code ((freq : Rat) / xtal)
      = freq / xtal * 1000000 + freq % xtal * 1000000 / xtal := by
  have hscaled : ((freq : Rat) / xtal - 0) / (1 / 1000000) = ((freq * 1000000 : Nat) : Rat) / xtal := by
    push_cast
    ring
  unfold Grid.code millionths
  dsimp only
  rw [hscaled, Nat.floor_div_eq_div, div_grid _ _ _ hxtal]

/-- The multiple that is looked for. -/
structure Multiple (xtal freq : Nat) (a b c : UInt32) : Prop where
  whole : a.toNat = freq / xtal
  below : b.toNat < c.toNat
  twenty : c.toNat ≤ 1000000
  onGrid : (a.toNat + b.toNat / c.toNat : Rat)
    = millionths.point (millionths.code ((freq : Rat) / xtal))

section Calls

variable (floor128 : UInt32 → UInt32 → Nat) (pllHz : UInt32 → UInt32 → UInt32 → UInt32 → UInt32)

/-- A frequency the PLLs have. -/
def InVco (freq : UInt32) : Prop := 600000000 ≤ freq.toNat ∧ freq.toNat ≤ 900000000

theorem vco_range (freq : UInt32) :
    (freq.toUInt64 < pllVcoMin ∨ freq.toUInt64 > pllVcoMax) ↔ ¬ InVco freq := by
  have hmin : pllVcoMin.toNat = 600000000 := rfl
  have hmax : pllVcoMax.toNat = 900000000 := rfl
  unfold InVco
  rw [gt_iff_lt, UInt64.lt_iff_toNat_lt, UInt64.lt_iff_toNat_lt, hmin, hmax, UInt32.toNat_toUInt64]
  omega

/-- A frequency that the crystal divides is a whole multiple. -/
theorem multiple_whole {xtal freq : UInt32} (hxtal : 0 < xtal.toNat)
    (h : freq.toNat % xtal.toNat = 0) : Multiple xtal.toNat freq.toNat (freq / xtal) 0 1 where
  whole := UInt32.toNat_div _ _
  below := by decide
  twenty := by decide
  onGrid := by
    rw [code_millionths hxtal, h, Nat.zero_mul, Nat.zero_div, Nat.add_zero, UInt32.toNat_div]
    unfold Grid.point millionths
    rw [UInt32.toNat_zero, UInt32.toNat_one]
    push_cast
    ring

/-- Any other one is a number of millionths. -/
theorem multiple_scaled {xtal freq b : UInt32} (hxtal : 0 < xtal.toNat)
    (hb : b.toNat = freq.toNat % xtal.toNat * 1000000 / xtal.toNat) :
    Multiple xtal.toNat freq.toNat (freq / xtal) b rfracDenom.toUInt32 where
  whole := UInt32.toNat_div _ _
  below := by
    rw [hb]
    exact scaled_lt hxtal
  twenty := by decide
  onGrid := by
    have hc : rfracDenom.toUInt32.toNat = 1000000 := rfl
    rw [code_millionths hxtal, hb, hc, UInt32.toNat_div]
    unfold Grid.point millionths
    push_cast
    ring

/-- **The multiple is the grid point below.** -/
theorem setPllFreq_eq (d : Si5351aPlls) {cfg : Si5351aConfig} (hxtal : 0 < cfg.xtalFreq.toNat)
    (pll : UInt8) {freq : UInt32} (hvco : InVco freq) :
    ∃ a b c, d.setPllFreq floor128 pllHz cfg pll freq = d.setPll floor128 pllHz cfg pll a b c ∧
      Multiple cfg.xtalFreq.toNat freq.toNat a b c := by
  have hrem : (freq.toUInt64 % cfg.xtalFreq.toUInt64).toNat = freq.toNat % cfg.xtalFreq.toNat := by
    rw [UInt64.toNat_mod, UInt32.toNat_toUInt64, UInt32.toNat_toUInt64]
  unfold setPllFreq
  rw [if_neg (fun h => (vco_range freq).mp h hvco)]
  dsimp only
  by_cases hzero : freq.toUInt64 % cfg.xtalFreq.toUInt64 = 0
  · rw [if_pos hzero]
    rw [hzero] at hrem
    exact ⟨_, _, _, rfl, multiple_whole hxtal hrem.symm⟩
  · rw [if_neg hzero]
    have hx := cfg.xtalFreq.toNat_lt
    have hb := @scaled_toNat freq.toUInt64 cfg.xtalFreq.toUInt64 hxtal
      (show cfg.xtalFreq.toNat < 17592186044416 by omega)
    exact ⟨_, _, _, rfl, multiple_scaled hxtal hb⟩

end Calls

/-! ## The frequency -/

/-- What the driver remembers of a PLL: whether it is set up, and its frequency. -/
def record (d : Si5351aPlls) (pll : UInt8) : Bool × UInt32 :=
  if pll = pllA then (d.pllaConfigured, d.pllaFreq) else (d.pllbConfigured, d.pllbFreq)

theorem remember_record (d : Si5351aPlls) (pll : UInt8) (freq : UInt32) :
    (remember d pll freq).record pll = (true, freq) := by
  unfold remember record
  split <;> rfl

theorem remember_other (d : Si5351aPlls) {pll other : UInt8} (freq : UInt32)
    (hpll : pll = pllA ∨ pll = pllB) (hother : other = pllA ∨ other = pllB) (hne : other ≠ pll) :
    (remember d pll freq).record other = d.record other := by
  have hAB : pllB ≠ pllA := by decide
  rcases hpll with rfl | rfl
  · rcases hother with rfl | rfl
    · exact absurd rfl hne
    · unfold remember record
      rw [if_pos rfl, if_neg hAB, if_neg hAB]
  · rcases hother with rfl | rfl
    · unfold remember record
      rw [if_neg hAB, if_pos rfl, if_pos rfl]
    · exact absurd rfl hne

/-- A PLL was set to a frequency: what the chip reads is right to a millionth of the crystal's
frequency, and the driver remembers what the chip makes of it. -/
structure Tuned (xtal : Nat) (pll : UInt8) (freq : Nat) (d d' : Si5351aPlls) (p : DividerParams) :
    Prop where
  low : (xtal : Rat) * p.ratio ≤ freq
  high : (freq : Rat) < xtal * p.ratio + xtal / 1000000
  exact : xtal ∣ freq → (xtal : Rat) * p.ratio = freq
  configured : (d'.record pll).1 = true
  remembered : (d'.record pll).2.toNat = ⌊(xtal : Rat) * p.ratio⌋₊
  other : ∀ other, other = pllA ∨ other = pllB → other ≠ pll → d'.record other = d.record other

/-- A multiple of the grid as a frequency. -/
theorem Multiple.bounds {xtal freq : Nat} {a b c : UInt32} (h : Multiple xtal freq a b c)
    (hxtal : 0 < xtal) :
    (xtal : Rat) * (a.toNat + b.toNat / c.toNat) ≤ freq ∧
      (freq : Rat) < xtal * (a.toNat + b.toNat / c.toNat) + xtal / 1000000 ∧
      (xtal ∣ freq → (xtal : Rat) * (a.toNat + b.toNat / c.toNat) = freq) := by
  have hx : (0 : Rat) < xtal := Nat.cast_pos.mpr hxtal
  have hvalue : (xtal : Rat) * ((freq : Rat) / xtal) = freq := mul_div_cancel₀ _ hx.ne'
  rw [h.onGrid]
  refine ⟨?_, ?_, ?_⟩
  · have hle := millionths.point_code_le (show (0 : Rat) ≤ (freq : Rat) / xtal by positivity)
    calc (xtal : Rat) * millionths.point (millionths.code ((freq : Rat) / xtal))
        ≤ xtal * ((freq : Rat) / xtal) := mul_le_mul_of_nonneg_left hle hx.le
      _ = freq := hvalue
  · have hlt := millionths.lt_point_code_add ((freq : Rat) / xtal)
    calc (freq : Rat) = xtal * ((freq : Rat) / xtal) := hvalue.symm
      _ < xtal * (millionths.point (millionths.code ((freq : Rat) / xtal)) + 1 / 1000000) :=
          mul_lt_mul_of_pos_left hlt hx
      _ = _ := by ring
  · rintro ⟨k, rfl⟩
    -- a whole multiple is a point of the grid
    have hpoint : ((xtal * k : Nat) : Rat) / xtal = millionths.point (k * 1000000) := by
      unfold Grid.point millionths
      push_cast
      field_simp
      ring
    rw [hpoint, millionths.code_point, ← hpoint, hvalue]

/-- A multiple of 15 to 90 is taken, and fits the registers. -/
theorem Multiple.args {xtal freq : Nat} {a b c : UInt32} (h : Multiple xtal freq a b c)
    {pll : UInt8} (hpll : pll = pllA ∨ pll = pllB) (hwhole : ¬ (freq / xtal < 15 ∨ 90 < freq / xtal)) :
    PllArgs a b c pll ∧ Fits a b c := by
  have hbelow := h.below
  have htwenty := h.twenty
  refine ⟨⟨?_, ?_, ?_, ?_⟩, by omega, ?_⟩
  · rintro ⟨hA, hB⟩
    exact hpll.elim hA hB
  · rw [pll_whole_range, h.whole]
    exact hwhole
  · have hmax : (1048574 : UInt32).toNat = 1048574 := rfl
    rw [gt_iff_lt, UInt32.lt_iff_toNat_lt, hmax]
    omega
  · rintro rfl
    exact absurd hbelow (Nat.not_lt_zero _)
  · have hle : a.toNat * c.toNat ≤ 90 * c.toNat :=
      Nat.mul_le_mul_right _ (by rw [h.whole]; omega)
    omega

/-- A message that succeeds tunes the PLL. -/
theorem setPll_tunes {floor128 : UInt32 → UInt32 → Nat} (hfloor : Exact128 floor128)
    {pllHz : UInt32 → UInt32 → UInt32 → UInt32 → UInt32} (hhz : ExactHz pllHz) (d : Si5351aPlls)
    {cfg : Si5351aConfig} (hxtal : 0 < cfg.xtalFreq.toNat) {pll : UInt8}
    (hpll : pll = pllA ∨ pll = pllB) {freq a b c : UInt32}
    (hmul : Multiple cfg.xtalFreq.toNat freq.toNat a b c) (hargs : PllArgs a b c pll)
    (hfits : Fits a b c) (hbus : d.busResult = 0) :
    ∃ bytes p, (d.setPll floor128 pllHz cfg pll a b c).2.sent = d.sent ++ [pllBase pll :: bytes] ∧
      readDivider bytes = some p ∧ Tuned cfg.xtalFreq.toNat pll freq.toNat d
        (d.setPll floor128 pllHz cfg pll a b c).2 p := by
  have hbelow := hmul.below
  have htwenty := hmul.twenty
  have hrange := hargs.whole
  rw [pll_whole_range] at hrange
  obtain ⟨p, hp, hden⟩ :=
    (@denotes_iff floor128 a b c hfloor (by omega) (by omega) (by omega)).mpr hfits
  obtain ⟨hlow, hhigh, hexact⟩ := hmul.bounds hxtal
  have h32 : (freq.toNat : Rat) < 4294967296 := by exact_mod_cast freq.toNat_lt
  rw [setPll_eq floor128 pllHz d cfg hargs]
  dsimp only
  rw [if_neg (not_not.mpr hbus)]
  refine ⟨dividerBytes floor128 a b c, p, ?_, hp, ?_⟩
  · unfold remember
    split <;> rfl
  · constructor
    case low => rwa [hden.ratio]
    case high => rwa [hden.ratio]
    case exact => rwa [hden.ratio]
    case configured => rw [remember_record]
    case remembered =>
      rw [remember_record, hden.ratio]
      exact hhz _ a b c hargs.denominator (lt_of_le_of_lt hlow h32)
    case other =>
      intro other hother hne
      rw [remember_other _ _ hpll hother hne]
      rfl

/-- **The frequency of a PLL.** On success the message that went out holds a multiple that the chip
reads right and the driver remembers. On failure the driver remembers what it did before, and the
frequency or the multiple is not one the PLLs have, or the message failed. -/
theorem pll_frequency {floor128 : UInt32 → UInt32 → Nat} (hfloor : Exact128 floor128)
    {pllHz : UInt32 → UInt32 → UInt32 → UInt32 → UInt32} (hhz : ExactHz pllHz) (d : Si5351aPlls)
    {cfg : Si5351aConfig} (hxtal : 0 < cfg.xtalFreq.toNat) {pll : UInt8}
    (hpll : pll = pllA ∨ pll = pllB) (freq : UInt32) :
    let out := d.setPllFreq floor128 pllHz cfg pll freq
    (out.1 = 0 → ∃ bytes p, out.2.sent = d.sent ++ [pllBase pll :: bytes] ∧
      readDivider bytes = some p ∧ Tuned cfg.xtalFreq.toNat pll freq.toNat d out.2 p) ∧
    (out.1 ≠ 0 →
      (¬ InVco freq ∨ freq.toNat / cfg.xtalFreq.toNat < 15 ∨ 90 < freq.toNat / cfg.xtalFreq.toNat ∨
        d.busResult = out.1) ∧
      ∀ any, out.2.record any = d.record any) := by
  intro out
  have hrefused : (-22 : Int) ≠ 0 := by decide
  by_cases hvco : InVco freq
  · obtain ⟨a, b, c, heq, hmul⟩ := setPllFreq_eq floor128 pllHz d hxtal pll hvco
    have hout : out = d.setPll floor128 pllHz cfg pll a b c := heq
    by_cases hwhole : freq.toNat / cfg.xtalFreq.toNat < 15 ∨ 90 < freq.toNat / cfg.xtalFreq.toNat
    · -- the multiple is refused
      have hargs : ¬ PllArgs a b c pll := by
        intro h
        have := h.whole
        rw [pll_whole_range, hmul.whole] at this
        exact this hwhole
      rw [hout, setPll_refuses floor128 pllHz d cfg hargs]
      exact ⟨fun h0 => absurd h0 hrefused, fun _ => ⟨Or.inr (by tauto), fun _ => rfl⟩⟩
    · obtain ⟨hargs, hfits⟩ := hmul.args hpll hwhole
      rw [hout]
      by_cases hbus : d.busResult = 0
      · refine ⟨fun _ => setPll_tunes hfloor hhz d hxtal hpll hmul hargs hfits hbus, fun h => ?_⟩
        rw [setPll_eq floor128 pllHz d cfg hargs] at h
        dsimp only at h
        rw [if_neg (not_not.mpr hbus)] at h
        exact absurd rfl h
      · -- the message has failed
        rw [setPll_eq floor128 pllHz d cfg hargs]
        dsimp only
        rw [if_pos hbus]
        exact ⟨fun h0 => absurd h0 hbus, fun _ => ⟨by tauto, fun _ => rfl⟩⟩
  · have hout : out = (-22, d) := if_pos ((vco_range freq).mpr hvco)
    rw [hout]
    exact ⟨fun h0 => absurd h0 hrefused, fun _ => ⟨Or.inl hvco, fun _ => rfl⟩⟩

theorem exact_wholeHz : ExactHz wholeHz := by
  intro xtal a b c hc hlt
  have hc' : (c.toNat : Rat) ≠ 0 := by
    rw [Nat.cast_ne_zero]
    exact fun h0 => hc (UInt32.toNat_inj.mp h0)
  have hvalue : (xtal.toNat : Rat) * (a.toNat + b.toNat / c.toNat)
      = ((xtal.toNat * (a.toNat * c.toNat + b.toNat) : Nat) : Rat) / c.toNat := by
    push_cast
    field_simp
  rw [hvalue] at hlt ⊢
  rw [Nat.floor_div_eq_div]
  unfold wholeHz
  rw [UInt32.toNat_ofNat']
  refine Nat.mod_eq_of_lt (show _ < 4294967296 from ?_)
  rw [← @Nat.floor_div_eq_div Rat, Nat.floor_lt (by positivity), Nat.cast_ofNat]
  exact hlt

/-- PLL B at 868 MHz from a crystal of 25 MHz, a multiple of 34.72. -/
theorem pll_frequency_pllb :
    let d : Si5351aPlls := ⟨⟨0, 0, [], []⟩, false, false⟩
    let out := d.setPllFreq wholeFloor128 wholeHz ⟨25000000⟩ pllB 868000000
    ∃ bytes p, out.2.sent = [34 :: bytes] ∧ readDivider bytes = some p ∧
      Tuned 25000000 pllB 868000000 d out.2 p := by
  intro d out
  exact (@pll_frequency wholeFloor128 exact_wholeFloor128 wholeHz exact_wholeHz d ⟨25000000⟩
    (by decide) pllB (Or.inr rfl) 868000000).1 (by decide)

end MiniHF.Si5351aPlls
