import MiniHF.Radio.Si5351a

/-!
# The frequency an output is set to

A frequency is asked for in hertz and thousandths. `si5351a_set_ms_freq` divides the
PLL's frequency by it in 64 bits, to a whole part and millionths, and writes the
divider if the whole part is one the chip has. That is the divider rounded down to
the grid of millionths. The whole part is cut to 32 bits before it is looked at,
though, and a divider of `2^32` and more can look like a small one then.
-/

namespace MiniHF.Si5351a

/-! ## Rounding down to a grid -/

/-- A quotient on a grid of `D` steps: the whole part and what is left of the rest. -/
theorem div_grid (P F D : Nat) (hF : 0 < F) : P * D / F = P / F * D + P % F * D / F := by
  have hsplit : P * D = F * (P / F * D) + P % F * D := by
    rw [← Nat.mul_assoc, ← Nat.add_mul, Nat.div_add_mod]
  rw [hsplit, Nat.mul_add_div hF]

/-- The grid point below a quotient. -/
theorem grid_bounds (P F D : Nat) (hF : 0 < F) :
    F * (P / F * D + P % F * D / F) ≤ P * D ∧ P * D < F * (P / F * D + P % F * D / F + 1) := by
  rw [← div_grid P F D hF]
  exact ⟨Nat.mul_div_le _ _, Nat.lt_mul_div_succ _ hF⟩

/-! ## What a call sends -/

section Calls

variable (floor128 : UInt32 → UInt32 → Nat)

/-- The two messages that set an output to the divider `a + b / c`. -/
def msMessages (ms : UInt8) (a b c : UInt32) (pll : UInt8) : List (List UInt8) :=
  [(42 + ms * 8) :: dividerBytes floor128 a b c, [16 + ms, clkCtrl b pll]]

theorem i2cWrite_sent (d : Si5351a) (buf : List UInt8) :
    (d.i2cWrite buf).2.sent = d.sent ++ [buf] := by
  unfold i2cWrite
  cases d.results <;> rfl

/-- A divider the chip does not have is refused before anything is sent. -/
theorem setMs_refuses (d : Si5351a) (ms : UInt8) {a : UInt32} (b c : UInt32) (pll : UInt8)
    (ha : a < 6 ∨ a > 1800) : d.setMs floor128 ms a b c pll = (-22, d) := by
  unfold setMs
  rw [if_pos ha]
  split <;> rfl

/-- The arguments `si5351a_set_ms` takes. -/
structure MsArgs (ms : UInt8) (a b c : UInt32) (pll : UInt8) : Prop where
  output : ¬ ms > 7
  whole : ¬ (a < 6 ∨ a > 1800)
  fraction : ¬ b > 1048574
  denominator : c ≠ 0
  knownPll : ¬ (pll ≠ pllA ∧ pll ≠ pllB)

variable {ms : UInt8} {a b c : UInt32} {pll : UInt8}

/-- **A divider it takes is sent.** Something is on the bus in any case, and after success both
messages are. -/
theorem setMs_sends (d : Si5351a) (h : MsArgs ms a b c pll) :
    (d.setMs floor128 ms a b c pll).2.sent ≠ d.sent ∧
      ((d.setMs floor128 ms a b c pll).1 = 0 →
        (d.setMs floor128 ms a b c pll).2.sent = d.sent ++ msMessages floor128 ms a b c pll) := by
  have hfirst := i2cWrite_sent d ((42 + ms * 8) :: dividerBytes floor128 a b c)
  unfold setMs
  rw [if_neg h.output, if_neg h.whole, if_neg h.fraction, if_neg h.denominator, if_neg h.knownPll]
  unfold writeMultiple
  dsimp only
  split
  · next hret =>
      rw [hfirst]
      exact ⟨by simp, fun h0 => absurd h0 hret⟩
  · unfold writeReg
    rw [i2cWrite_sent, hfirst, List.append_assoc]
    exact ⟨by simp, fun _ => rfl⟩

/-! ## The divider of a frequency -/

/-- A frequency in thousandths of a hertz. -/
def target (freqHz freqMillihz : UInt32) : Nat := 1000 * freqHz.toNat + freqMillihz.toNat

/-- The frequency of a PLL in thousandths of a hertz. -/
def source (d : Si5351a) (pll : UInt8) : Nat := 1000 * (d.pllFreq pll).toNat

/-- The arguments `si5351a_set_ms_freq` takes, before it has divided. -/
structure FreqArgs (d : Si5351a) (ms : UInt8) (freqHz freqMillihz : UInt32) (pll : UInt8) :
    Prop where
  output : ¬ ms > 7
  knownPll : ¬ (pll ≠ pllA ∧ pll ≠ pllB)
  thousandths : ¬ freqMillihz ≥ 1000
  locked : d.pllFreq pll ≠ 0
  asked : target freqHz freqMillihz ≠ 0

variable {d : Si5351a} {freqHz freqMillihz : UInt32}

theorem target_toNat (freqHz freqMillihz : UInt32) :
    (freqHz.toUInt64 * 1000 + freqMillihz.toUInt64).toNat = target freqHz freqMillihz := by
  have hhz := freqHz.toNat_lt
  have hmhz := freqMillihz.toNat_lt
  have h1000 : (1000 : UInt64).toNat = 1000 := rfl
  unfold target
  rw [UInt64.toNat_add, UInt64.toNat_mul, UInt32.toNat_toUInt64, UInt32.toNat_toUInt64, h1000]
  omega

theorem source_toNat (d : Si5351a) (pll : UInt8) :
    ((d.pllFreq pll).toUInt64 * 1000).toNat = d.source pll := by
  have hpll := (d.pllFreq pll).toNat_lt
  have h1000 : (1000 : UInt64).toNat = 1000 := rfl
  unfold source
  rw [UInt64.toNat_mul, UInt32.toNat_toUInt64, h1000]
  omega

/-- What a division leaves over, in millionths of the divisor. -/
theorem scaled_lt {n m : Nat} (h : 0 < m) : n % m * 1000000 / m < 1000000 := by
  have hlt : n % m < m := Nat.mod_lt _ h
  refine Nat.div_lt_of_lt_mul ?_
  omega

/-- **The numerator of a divider.** The rest is below the divisor, so a million times it is below
`2^64`. -/
theorem scaled_toNat (x : UInt64) {y : UInt64} (hpos : 0 < y.toNat)
    (hlt : y.toNat < 17592186044416) :
    (x % y * rfracDenom.toUInt32.toUInt64 / y).toUInt32.toNat
      = x.toNat % y.toNat * 1000000 / y.toNat := by
  have hden : rfracDenom.toUInt32.toUInt64.toNat = 1000000 := rfl
  have hrest : x.toNat % y.toNat < y.toNat := Nat.mod_lt _ hpos
  rw [UInt64.toNat_toUInt32, UInt64.toNat_div, UInt64.toNat_mul, UInt64.toNat_mod, hden,
    Nat.mod_eq_of_lt (show x.toNat % y.toNat * 1000000 < 2 ^ 64 by omega)]
  exact Nat.mod_eq_of_lt (Nat.lt_trans (scaled_lt hpos) (by decide))

/-- Nothing overflows in 64 bits but the whole part, which is cut to 32. -/
theorem setMsFreq_eq (h : FreqArgs d ms freqHz freqMillihz pll) :
    ∃ a b : UInt32, d.setMsFreq floor128 ms freqHz freqMillihz pll
        = d.setMs floor128 ms a b rfracDenom.toUInt32 pll ∧
      a.toNat = d.source pll / target freqHz freqMillihz % 4294967296 ∧
      b.toNat = d.source pll % target freqHz freqMillihz * 1000000 / target freqHz freqMillihz ∧
      b.toNat < 1000000 := by
  have hF := target_toNat freqHz freqMillihz
  have hP := source_toNat d pll
  have hpos : 0 < target freqHz freqMillihz := Nat.pos_of_ne_zero h.asked
  have hFlt : target freqHz freqMillihz < 17592186044416 := by
    have hhz := freqHz.toNat_lt
    have hmhz := freqMillihz.toNat_lt
    unfold target
    omega
  have hnz : freqHz.toUInt64 * 1000 + freqMillihz.toUInt64 ≠ 0 := by
    intro h0
    rw [h0] at hF
    exact h.asked hF.symm
  have hb := scaled_toNat ((d.pllFreq pll).toUInt64 * 1000)
    (show 0 < (freqHz.toUInt64 * 1000 + freqMillihz.toUInt64).toNat by rw [hF]; exact hpos)
    (by rw [hF]; exact hFlt)
  rw [hF, hP] at hb
  unfold setMsFreq
  rw [if_neg h.output, if_neg h.knownPll, if_neg h.thousandths]
  dsimp only
  rw [if_neg h.locked, if_neg hnz]
  refine ⟨_, _, rfl, ?_, hb, by rw [hb]; exact scaled_lt hpos⟩
  rw [UInt64.toNat_toUInt32, UInt64.toNat_div, hF, hP]

/-! ## What is honoured -/

/-- The claim on one call: success means the divider rounded down to millionths, and a divider out
of the chip's range is refused with nothing sent. -/
def Honest (d : Si5351a) (ms : UInt8) (freqHz freqMillihz : UInt32) (pll : UInt8) : Prop :=
  let F := target freqHz freqMillihz
  let P := d.source pll
  let (ret, d') := d.setMsFreq floor128 ms freqHz freqMillihz pll
  (ret = 0 → ∃ a b : UInt32,
    d'.sent = d.sent ++ msMessages floor128 ms a b rfracDenom.toUInt32 pll ∧
      F * (a.toNat * 1000000 + b.toNat) ≤ P * 1000000 ∧
      P * 1000000 < F * (a.toNat * 1000000 + b.toNat + 1)) ∧
    (P / F < 6 ∨ 1800 < P / F → ret ≠ 0 ∧ d'.sent = d.sent)

/-- The divider is `2^32` or more and looks like one the chip has when it is cut to 32 bits. -/
def Aliased (d : Si5351a) (ms : UInt8) (freqHz freqMillihz : UInt32) (pll : UInt8) : Prop :=
  let q := d.source pll / target freqHz freqMillihz
  ms ≤ 7 ∧ (pll = pllA ∨ pll = pllB) ∧ freqMillihz < 1000 ∧
    4294967296 ≤ q ∧ 6 ≤ q % 4294967296 ∧ q % 4294967296 ≤ 1800

/-- Arguments that are not taken change nothing. -/
theorem setMsFreq_refuses (d : Si5351a) (ms : UInt8) (freqHz freqMillihz : UInt32) (pll : UInt8)
    (h : ¬ FreqArgs d ms freqHz freqMillihz pll) :
    d.setMsFreq floor128 ms freqHz freqMillihz pll = (-22, d) := by
  unfold setMsFreq
  dsimp only
  split
  · rfl
  split
  · rfl
  split
  · rfl
  split
  · rfl
  split
  · rfl
  next houtput hpll hthousandths hlocked hnz =>
    refine absurd ⟨houtput, hpll, hthousandths, hlocked, ?_⟩ h
    intro h0
    -- hertz and thousandths are both 0 then
    unfold target at h0
    have hhz : freqHz = 0 := UInt32.toNat_inj.mp (show freqHz.toNat = 0 by omega)
    have hmhz : freqMillihz = 0 := UInt32.toNat_inj.mp (show freqMillihz.toNat = 0 by omega)
    subst hhz hmhz
    exact hnz rfl

/-- A divider that is aliased comes from arguments that are taken. -/
theorem Aliased.args (h : d.Aliased ms freqHz freqMillihz pll) :
    FreqArgs d ms freqHz freqMillihz pll := by
  obtain ⟨hout, hpll, hth, hbig, -, -⟩ := h
  refine ⟨UInt8.not_lt.mpr hout, ?_, UInt32.not_le.mpr hth, ?_, ?_⟩
  · rintro ⟨hA, hB⟩
    rcases hpll with h | h
    · exact hA h
    · exact hB h
  · intro h0
    have hz : d.source pll = 0 := by
      unfold source
      rw [h0]
      rfl
    rw [hz, Nat.zero_div] at hbig
    exact absurd hbig (by decide)
  · intro h0
    rw [h0, Nat.div_zero] at hbig
    exact absurd hbig (by decide)

/-- Without aliasing nothing is cut off a divider that looks like one the chip has. -/
theorem FreqArgs.uncut (h : FreqArgs d ms freqHz freqMillihz pll)
    (halias : ¬ d.Aliased ms freqHz freqMillihz pll)
    (hin : ¬ (d.source pll / target freqHz freqMillihz % 4294967296 < 6 ∨
      1800 < d.source pll / target freqHz freqMillihz % 4294967296)) :
    d.source pll / target freqHz freqMillihz < 4294967296 := by
  refine Nat.lt_of_not_le ?_
  intro hbig
  refine halias ⟨UInt8.not_lt.mp h.output, ?_, UInt32.not_le.mp h.thousandths, hbig, by omega,
    by omega⟩
  by_cases hA : pll = pllA
  · exact Or.inl hA
  · exact Or.inr (Decidable.not_not.mp fun hB => h.knownPll ⟨hA, hB⟩)

/-- The range check, on numbers. -/
theorem whole_range (a : UInt32) : (a < 6 ∨ a > 1800) ↔ (a.toNat < 6 ∨ 1800 < a.toNat) := by
  have h6 : (6 : UInt32).toNat = 6 := rfl
  have h1800 : (1800 : UInt32).toNat = 1800 := rfl
  rw [UInt32.lt_iff_toNat_lt, gt_iff_lt, UInt32.lt_iff_toNat_lt, h6, h1800]

/-- **When the output gets the frequency.** On every state of the driver, every request and every
outcome on the bus, exactly the requests with an aliased divider are not honoured. -/
theorem ms_frequency (d : Si5351a) (ms : UInt8) (freqHz freqMillihz : UInt32) (pll : UInt8) :
    d.Honest floor128 ms freqHz freqMillihz pll ↔ ¬ d.Aliased ms freqHz freqMillihz pll := by
  unfold Honest
  dsimp only
  have hrefused : (-22 : Int) ≠ 0 := by decide
  by_cases hargs : FreqArgs d ms freqHz freqMillihz pll
  · obtain ⟨a, b, heq, ha, hb, hblt⟩ := setMsFreq_eq floor128 hargs
    rw [heq]
    by_cases hin : a < 6 ∨ a > 1800
    · -- refused by the range check: the whole part, cut, is out of range
      rw [setMs_refuses floor128 d ms b _ pll hin]
      refine iff_of_true ⟨fun h0 => absurd h0 hrefused, fun _ => ⟨hrefused, rfl⟩⟩ ?_
      rintro ⟨-, -, -, -, hlo, hhi⟩
      have hcut := (whole_range a).mp hin
      omega
    · have hb' : ¬ b > 1048574 := by
        have hmax : (1048574 : UInt32).toNat = 1048574 := rfl
        rw [gt_iff_lt, UInt32.lt_iff_toNat_lt, hmax]
        omega
      have hms : MsArgs ms a b rfracDenom.toUInt32 pll :=
        ⟨hargs.output, hin, hb', by decide, hargs.knownPll⟩
      obtain ⟨hne, hsent⟩ := setMs_sends floor128 d hms
      rw [whole_range, ha] at hin
      constructor
      · rintro ⟨-, hout⟩ ⟨-, -, -, hbig, -⟩
        exact hne (hout (Or.inr (by omega))).2
      · intro halias
        have hsmall := hargs.uncut halias hin
        rw [Nat.mod_eq_of_lt hsmall] at ha hin
        have hpos : 0 < target freqHz freqMillihz := Nat.pos_of_ne_zero hargs.asked
        obtain ⟨hlo, hhi⟩ :=
          grid_bounds (d.source pll) (target freqHz freqMillihz) 1000000 hpos
        rw [← ha, ← hb] at hlo hhi
        exact ⟨fun h0 => ⟨a, b, hsent h0, hlo, hhi⟩, fun hout => absurd hout hin⟩
  · rw [setMsFreq_refuses floor128 d ms freqHz freqMillihz pll hargs]
    exact iff_of_true ⟨fun h0 => absurd h0 hrefused, fun _ => ⟨hrefused, rfl⟩⟩
      (fun halias => hargs halias.args)

end Calls

/-- PLL A at 614.180325 MHz, which 25 MHz times 24.567213 is, and an output of a thousandth of a
hertz: the divider is `143 * 2^32 + 1672`, and 1672 is programmed. -/
theorem ms_frequency_wrapped :
    ¬ ∀ (floor128 : UInt32 → UInt32 → Nat) (d : Si5351a) (ms : UInt8) (freqHz freqMillihz : UInt32)
        (pll : UInt8), d.Honest floor128 ms freqHz freqMillihz pll := by
  intro h
  let d : Si5351a := { pllaFreq := 614180325, pllbFreq := 0, results := [], sent := [] }
  have hhonest := h (fun _ _ => 0) d 0 0 1 pllA
  have hq : d.source pllA / target 0 1 = 614180325000 := by decide
  unfold Honest at hhonest
  dsimp only at hhonest
  rw [hq] at hhonest
  exact absurd (hhonest.2 (Or.inr (by decide))).2 (by decide)

end MiniHF.Si5351a
