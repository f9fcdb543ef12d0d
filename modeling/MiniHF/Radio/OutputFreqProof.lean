import MiniHF.Radio.RoundingProof
import MiniHF.Radio.Si5351aPartsProof

/-!
# From the frequency asked for to the registers

The registers say what the chip puts out: the crystal's frequency times the multiple
of a PLL, by the divider of the output. Between the frequency that is asked for and
these numbers there are two roundings, of the multiple and of the divider, and what
the driver remembers of the PLL in whole hertz, worked out in doubles and up to two
hertz low. All of them are down, so the output is never too low, and together they
make less than a fifth of a millionth.
-/

namespace MiniHF.Si5351aDriver

open Registers Runs I2cChip Si5351a Si5351aPlls Si5351aPart

/-! ## What the registers say -/

/-- What the registers of a divider say. -/
def divider (regs : UInt8 → UInt8) (base : UInt8) : Option DividerParams :=
  readDivider ((dividerRegs base).map regs)

/-- The frequency of an output, if it is powered up and gets what its own divider makes. -/
def outputHz (xtal : Nat) (regs : UInt8 → UInt8) (k : Fin 8) : Option Rat :=
  let ctrl := regs (16 + ms k)
  if ctrl &&& 0x80 ≠ 0 ∨ ctrl &&& 0x0C ≠ 0x0C then none
  else do
    let p ← divider regs (if ctrl &&& 0x20 = 0 then 26 else 34)
    let q ← divider regs (42 + ms k * 8)
    some (xtal * p.ratio / q.ratio)

theorem divider_congr {regs regs' : UInt8 → UInt8} {base : UInt8}
    (h : ∀ r ∈ dividerRegs base, regs r = regs' r) : divider regs base = divider regs' base := by
  rw [divider, divider, List.map_congr_left h]

/-- The bases of the dividers; none of them comes round. -/
theorem dividerRegs_nodup {base : UInt8} (h : base ≤ 98) : (dividerRegs base).Nodup := by
  have hall : ∀ n : Fin 99, (dividerRegs (UInt8.ofNat n)).Nodup := by decide +kernel
  have hlt : base.toNat < 99 := Nat.lt_succ_of_le h
  have hbase := hall ⟨base.toNat, hlt⟩
  rwa [UInt8.ofNat_toNat] at hbase

section Sent

variable {floor128 : UInt32 → UInt32 → Nat} {a b c : UInt32}

/-- A message that has gone through can be read back. -/
theorem divider_sent (d : Si5351aDriver) {base : UInt8} (hbase : base ≤ 98)
    (hret : (d.i2cWriteDt (base :: dividerBytes floor128 a b c)).1 = 0) :
    divider (d.i2cWriteDt (base :: dividerBytes floor128 a b c)).2.regs base
      = readDivider (dividerBytes floor128 a b c) := by
  have hwindow := @writeDt_window d.toI2cChip base (dividerBytes floor128 a b c)
    (dividerRegs_nodup hbase) hret
  exact congrArg readDivider hwindow

theorem write_sent (d : Si5351aDriver) {reg value : UInt8} (hret : (d.writeReg reg value).1 = 0) :
    (d.writeReg reg value).2.regs reg = value := by
  rw [Si5351aDriver.writeReg, i2cWriteDt_eq] at hret ⊢
  dsimp only at hret ⊢
  rw [taken, if_pos hret]
  exact write_self d.regs reg value

/-- The bits of a control register that was set. -/
theorem clkCtrl_bits (b : UInt32) (pll : UInt8) :
    clkCtrl b pll &&& 0x80 = 0 ∧ clkCtrl b pll &&& 0x0C = 0x0C
      ∧ (clkCtrl b pll &&& 0x20 = 0 ↔ pll ≠ Si5351a.pllB) := by
  rw [clkCtrl]
  by_cases hpll : pll = Si5351a.pllB
  · rw [if_pos hpll]
    split <;> exact ⟨by decide, by decide, iff_of_false (by decide) (not_not.mpr hpll)⟩
  · rw [if_neg hpll]
    split <;> exact ⟨by decide, by decide, iff_of_true (by decide) hpll⟩

end Sent

theorem carryOut_congr {call call' : Si5351aPlls → Int × Si5351aPlls} {d : Si5351aDriver}
    (h : call d.bus = call' d.bus) : d.carryOut call = d.carryOut call' := by
  rw [carryOut, carryOut, h]

/-! ## A PLL that is set up -/

/-- What the driver remembers of the frequency of a PLL. -/
def remembered (d : Si5351aDriver) (pll : UInt8) : UInt32 := d.bus.toSi5351a.pllFreq pll

/-- The registers hold a multiple, and the driver remembers the frequency that it makes, or
almost. -/
structure PllAt (xtal : Nat) (pll : UInt8) (d : Si5351aDriver) (p : DividerParams) : Prop where
  holds : divider d.regs (pllBase pll) = some p
  below : ((d.remembered pll).toNat : Rat) ≤ xtal * p.ratio
  above : (xtal : Rat) * p.ratio < (d.remembered pll).toNat + 2
  fast : 599999940 ≤ (xtal : Rat) * p.ratio
  slow : (xtal : Rat) * p.ratio ≤ 900000000

theorem remembered_remember (d : Si5351aDriver) (pll : UInt8) (freq : UInt32) :
    (d.remember pll freq).remembered pll = freq := by
  rw [remembered, remember, Si5351a.pllFreq]
  split
  · rfl
  · rfl

theorem regs_remember (d : Si5351aDriver) (pll : UInt8) (freq : UInt32) :
    (d.remember pll freq).regs = d.regs := by
  rw [remember]
  split <;> rfl

section Calls

variable {floor128 : UInt32 → UInt32 → Nat} {pllHz : UInt32 → UInt32 → UInt32 → UInt32 → UInt32}
variable {cfg : Si5351aDts}

/-- **A frequency that was accepted is set up.** -/
theorem setPllFreq_locks (hfloor : Exact128 floor128) (hhz : RoundedHz pllHz)
    (hxtal : 0 < cfg.xtalFreq.toNat) (d : Si5351aDriver) {pll : UInt8}
    (hpll : pll = Si5351a.pllA ∨ pll = Si5351a.pllB) {freq : UInt32}
    (hret : (d.setPllFreq floor128 pllHz cfg pll freq).1 = 0) :
    ∃ p, PllAt cfg.xtalFreq.toNat pll (d.setPllFreq floor128 pllHz cfg pll freq).2 p := by
  have hrefused : (-22 : Int) ≠ 0 := by decide
  by_cases hvco : InVco freq
  case neg =>
    have hsame : d.setPllFreq floor128 pllHz cfg pll freq = (-22, d) :=
      carryOut_silent (if_pos ((vco_range freq).mpr hvco))
    rw [hsame] at hret
    exact absurd hret hrefused
  obtain ⟨a, b, c, heq, hmul⟩ := setPllFreq_eq floor128 pllHz d.bus hxtal pll hvco
  have hsets : d.setPllFreq floor128 pllHz cfg pll freq = d.setPll floor128 pllHz cfg pll a b c :=
    carryOut_congr heq
  rw [hsets] at hret ⊢
  by_cases hwhole : freq.toNat / cfg.xtalFreq.toNat < 15 ∨ 90 < freq.toNat / cfg.xtalFreq.toNat
  · have hargs : ¬ PllArgs a b c pll := by
      intro h
      have hrange := h.whole
      rw [pll_whole_range, hmul.whole] at hrange
      exact hrange hwhole
    rw [setPll_refused d hargs] at hret
    exact absurd hret hrefused
  obtain ⟨hargs, hfits⟩ := hmul.args hpll hwhole
  have hrange := hargs.whole
  rw [pll_whole_range] at hrange
  have hbelow := hmul.below
  have htwenty := hmul.twenty
  obtain ⟨p, hp, hden⟩ :=
    (@denotes_iff floor128 a b c hfloor (by omega) (by omega) (by omega)).mpr hfits
  obtain ⟨hlow, hhigh, -⟩ := hmul.bounds hxtal
  rw [← hden.ratio] at hlow hhigh
  rw [setPll_sends d hargs] at hret ⊢
  dsimp only at hret ⊢
  split at hret
  · next hfail => exact absurd hret hfail
  next hsent =>
  rw [if_neg hsent]
  have hbase : pllBase pll ≤ 98 := by
    rw [pllBase]
    split <;> decide
  have hmax : (freq.toNat : Rat) ≤ 900000000 := by exact_mod_cast hvco.2
  have hslow : (cfg.xtalFreq.toNat : Rat) * p.ratio ≤ 900000000 := hlow.trans hmax
  -- what the driver remembers is worked out of the multiple it has written
  obtain ⟨hunder, hover⟩ := hhz.near (Nat.zero_lt_of_lt hbelow) htwenty (hden.ratio ▸ hslow)
  rw [← hden.ratio] at hunder hover
  refine ⟨p, ?_, ?_, ?_, ?_, hslow⟩
  · rw [regs_remember, divider_sent d hbase (not_not.mp hsent), hp]
  · rwa [remembered_remember]
  · rwa [remembered_remember]
  · -- a crystal that goes fifteen times into the frequency
    have hx : 15 * cfg.xtalFreq.toNat ≤ freq.toNat := by
      have hwhole15 : 15 ≤ freq.toNat / cfg.xtalFreq.toNat := by omega
      exact (Nat.le_div_iff_mul_le hxtal).mp hwhole15
    have hx' : 15 * (cfg.xtalFreq.toNat : Rat) ≤ freq.toNat := by exact_mod_cast hx
    have hmin : (600000000 : Rat) ≤ freq.toNat := by exact_mod_cast hvco.1
    linarith

/-! ## An output that is set -/

/-- The registers hold a divider of a PLL for a frequency, in thousandths of a hertz, and the
output is on that PLL. -/
structure OutputAt (k : Fin 8) (pll : UInt8) (asked source : Nat) (regs : UInt8 → UInt8)
    (q : DividerParams) : Prop where
  holds : divider regs (42 + ms k * 8) = some q
  control : ∃ b, regs (16 + ms k) = clkCtrl b pll
  six : 6 ≤ q.ratio
  low : asked * q.ratio ≤ source
  high : (source : Rat) < asked * (q.ratio + 1 / 1000000)

/-- **A frequency that was accepted is what the divider makes**, but for a millionth of the
divider. -/
theorem setMsFreq_programs (hfloor : Exact128 floor128) (d : Si5351aDriver) {k : Fin 8}
    {freqHz freqMillihz : UInt32} {pll : UInt8} (hone : 1 ≤ freqHz.toNat)
    (hret : (d.setMsFreq floor128 (ms k) freqHz freqMillihz pll).1 = 0) :
    ∃ q, OutputAt k pll (target freqHz freqMillihz) (1000 * (d.remembered pll).toNat)
      (d.setMsFreq floor128 (ms k) freqHz freqMillihz pll).2.regs q := by
  have hrefused : (-22 : Int) ≠ 0 := by decide
  by_cases hargs : FreqArgs d.bus.toSi5351a (ms k) freqHz freqMillihz pll
  case neg =>
    have hsame : d.setMsFreq floor128 (ms k) freqHz freqMillihz pll = (-22, d) := by
      refine carryOut_silent ?_
      rw [setMsFreq_refuses floor128 _ _ _ _ _ hargs]
    rw [hsame] at hret
    exact absurd hret hrefused
  obtain ⟨a, b, heq, ha, hb, hlt⟩ := setMsFreq_eq floor128 hargs
  have hsets : d.setMsFreq floor128 (ms k) freqHz freqMillihz pll
      = d.setMs floor128 (ms k) a b rfracDenom.toUInt32 pll := by
    refine carryOut_congr ?_
    rw [heq]
  rw [hsets] at hret ⊢
  by_cases hms : MsArgs (ms k) a b rfracDenom.toUInt32 pll
  case neg =>
    rw [setMs_refused d hms] at hret
    exact absurd hret hrefused
  -- the quotient has 32 bits
  have hpos : 0 < target freqHz freqMillihz := Nat.pos_of_ne_zero hargs.asked
  have hsource : d.bus.toSi5351a.source pll = 1000 * (d.remembered pll).toNat := rfl
  have hquot : d.bus.toSi5351a.source pll / target freqHz freqMillihz < 4294967296 := by
    refine Nat.div_lt_of_lt_mul ?_
    have hpll := (d.remembered pll).toNat_lt
    rw [hsource, target]
    have hmul : 1000 * 4294967296 ≤ (1000 * freqHz.toNat + freqMillihz.toNat) * 4294967296 :=
      Nat.mul_le_mul_right _ (by omega)
    omega
  rw [Nat.mod_eq_of_lt hquot] at ha
  obtain ⟨hlo, hhi⟩ :=
    grid_bounds (d.bus.toSi5351a.source pll) (target freqHz freqMillihz) 1000000 hpos
  rw [← ha, ← hb, hsource] at hlo hhi
  have hrange := hms.whole
  rw [whole_range] at hrange
  have hden : rfracDenom.toUInt32.toNat = 1000000 := rfl
  have hfits : Fits a b rfracDenom.toUInt32 := by
    have hscaled : a.toNat * rfracDenom.toUInt32.toNat = a.toNat * 1000000 :=
      congrArg (a.toNat * ·) hden
    refine ⟨by omega, ?_⟩
    omega
  obtain ⟨q, hq, hdenotes⟩ := (@denotes_iff floor128 a b rfracDenom.toUInt32 hfloor (by omega)
    (by omega) (by omega)).mpr hfits
  have hratio := hdenotes.ratio
  rw [hden] at hratio
  rw [setMs_sends d hms] at hret ⊢
  dsimp only at hret ⊢
  split at hret
  · next hfail => exact absurd hret hfail
  next hsent =>
  rw [if_neg hsent]
  have hbase : 42 + ms k * 8 ≤ 98 := by
    have hall : ∀ k : Fin 8, (42 + ms k * 8).toNat ≤ 98 := by decide +kernel
    exact hall k
  have hapart : ∀ r ∈ dividerRegs (42 + ms k * 8), r ≠ 16 + ms k := by
    have hall : ∀ k : Fin 8, ∀ r ∈ dividerRegs (42 + ms k * 8), r ≠ 16 + ms k := by decide +kernel
    exact hall k
  refine ⟨q, ?_, ⟨b, write_sent _ hret⟩, ?_, ?_, ?_⟩
  · rw [divider_congr fun r hr => regs_write _ _ (hapart r hr),
      divider_sent d hbase (not_not.mp hsent), hq]
  · rw [hratio]
    have h6 : (6 : Rat) ≤ a.toNat := by exact_mod_cast (by omega : 6 ≤ a.toNat)
    have h0 : (0 : Rat) ≤ b.toNat := Nat.cast_nonneg _
    push_cast
    linarith
  · have hlo' : (target freqHz freqMillihz : Rat) * (a.toNat * 1000000 + b.toNat)
        ≤ (1000 * (d.remembered pll).toNat : Nat) * 1000000 := by exact_mod_cast hlo
    rw [hratio]
    push_cast at hlo' ⊢
    linarith
  · have hhi' : ((1000 * (d.remembered pll).toNat : Nat) : Rat) * 1000000
        < (target freqHz freqMillihz : Rat) * (a.toNat * 1000000 + b.toNat + 1) := by
      exact_mod_cast hhi
    rw [hratio]
    push_cast at hhi' ⊢
    linarith

/-! ## What happens later -/

/-- A PLL as a part. -/
def pllPart (pll : UInt8) : Si5351aPart := if pll = Si5351a.pllA then .pllA else .pllB

/-- The calls that write the divider of an output. -/
def tunes (k : Fin 8) : Si5351aCall → Bool
  | .init _ => true
  | .setMs out .. => out = ms k
  | .setMsFreq out .. => out = ms k
  | _ => false

/-- A PLL that looks the same is set up the same. -/
theorem PllAt.of_view {xtal : Nat} {pll : UInt8} {d d' : Si5351aDriver} {p : DividerParams}
    (h : PllAt xtal pll d p) (hview : (pllPart pll).view d' = (pllPart pll).view d) :
    PllAt xtal pll d' p := by
  obtain ⟨hbits, hrecords⟩ := view_eq_iff.mp hview
  by_cases hA : pll = Si5351a.pllA
  · subst hA
    have hown : ∀ r ∈ dividerRegs 26, d'.regs r = d.regs r := by
      intro r hr
      have hmask : (Si5351aPart.pllA).mask r = 0xFF := if_pos hr
      have hr' := hbits r
      rwa [show pllPart Si5351a.pllA = .pllA from rfl, hmask, and_all, and_all] at hr'
    have hsame : d'.remembered Si5351a.pllA = d.remembered Si5351a.pllA :=
      congrArg Prod.snd (List.cons.inj hrecords).1
    exact ⟨(divider_congr hown).trans h.holds, hsame ▸ h.below, hsame ▸ h.above, h.fast, h.slow⟩
  · have hpart : pllPart pll = .pllB := if_neg hA
    have hbase : pllBase pll = 34 := if_neg hA
    rw [hpart] at hbits hrecords
    have hown : ∀ r ∈ dividerRegs 34, d'.regs r = d.regs r := by
      intro r hr
      have hmask : (Si5351aPart.pllB).mask r = 0xFF := if_pos hr
      have hr' := hbits r
      rwa [hmask, and_all, and_all] at hr'
    have hfreq : ∀ d : Si5351aDriver, d.remembered pll = d.pllbFreq := fun d => if_neg hA
    have hsame : d'.remembered pll = d.remembered pll := by
      rw [hfreq, hfreq]
      exact congrArg Prod.snd (List.cons.inj hrecords).1
    refine ⟨?_, hsame ▸ h.below, hsame ▸ h.above, h.fast, h.slow⟩
    rw [hbase]
    exact (divider_congr hown).trans (hbase ▸ h.holds)

/-- The registers of an output's divider belong to the calls that tune it. -/
theorem untuned_apart {k : Fin 8} {call : Si5351aCall} (h : tunes k call = false) {r : UInt8}
    (hr : r ∈ (16 + ms k) :: dividerRegs (42 + ms k * 8)) : r ∉ touches call := by
  have hpll : ∀ k : Fin 8, ∀ r ∈ (16 + ms k) :: dividerRegs (42 + ms k * 8),
      r ∉ dividerRegs 26 ∧ r ∉ dividerRegs 34 ∧ r ≠ 177 ∧ r ≠ outputEnableControl
        ∧ r ≠ spreadSpectrumParameters := by decide +kernel
  have hms : ∀ k m : Fin 8, ms m ≠ ms k → ∀ r ∈ (16 + ms k) :: dividerRegs (42 + ms k * 8),
      r ∉ (16 + ms m) :: dividerRegs (42 + ms m * 8) := by decide +kernel
  obtain ⟨hA, hB, hreset, hcontrol, hspread⟩ := hpll k r hr
  have hbase : ∀ pll, r ∉ dividerRegs (pllBase pll) := by
    intro pll
    rw [pllBase]
    split
    · exact hA
    · exact hB
  have hout : ∀ out, out ≠ ms k →
      r ∉ (if out > 7 then [] else (16 + out) :: dividerRegs (42 + out * 8)) := by
    intro out hne
    split
    · exact List.not_mem_nil
    next hle =>
      obtain ⟨m, rfl⟩ := exists_ms hle
      exact hms k m hne r hr
  cases call with
  | init i2cIsReady => cases h
  | setPll pll a b c => exact hbase pll
  | setPllFreq pll freq => exact hbase pll
  | setMs out a b c pll => exact hout out (of_decide_eq_false h)
  | setMsFreq out freqHz freqMillihz pll => exact hout out (of_decide_eq_false h)
  | resetPll resetA resetB => exact fun hr => hreset (List.mem_singleton.mp hr)
  | enableOutput out enable => exact fun hr => hcontrol (List.mem_singleton.mp hr)
  | enableSpreadSpectrum enable => exact fun hr => hspread (List.mem_singleton.mp hr)
  | updateStatus => exact List.not_mem_nil

/-- An output that is set stays set as long as nothing tunes it. -/
theorem OutputAt.of_regs {k : Fin 8} {pll : UInt8} {asked source : Nat} {regs regs' : UInt8 → UInt8}
    {q : DividerParams} (h : OutputAt k pll asked source regs q)
    (hsame : ∀ r ∈ (16 + ms k) :: dividerRegs (42 + ms k * 8), regs' r = regs r) :
    OutputAt k pll asked source regs' q where
  holds := (divider_congr fun r hr => hsame r (List.mem_cons_of_mem _ hr)).trans h.holds
  control := by
    obtain ⟨b, hb⟩ := h.control
    exact ⟨b, (hsame _ List.mem_cons_self).trans hb⟩
  six := h.six
  low := h.low
  high := h.high

/-! ## The frequency of the output -/

/-- The roundings together: of a PLL to whole hertz, and of a divider to millionths. -/
theorem frequency_bounds {made div : Rat} {asked hertz : Nat} (hbelow : (hertz : Rat) ≤ made)
    (habove : made < hertz + 2) (hfast : 599999940 ≤ made) (hsix : 6 ≤ div)
    (hlow : asked * div ≤ (1000 * hertz : Nat))
    (hhigh : ((1000 * hertz : Nat) : Rat) < asked * (div + 1 / 1000000)) :
    (asked : Rat) ≤ 1000 * (made / div) ∧ 1000 * (made / div) < asked * (1 + 1 / 5000000) := by
  have hdiv : 0 < div := by linarith
  have hsixth : 6 * (asked : Rat) ≤ asked * div := by
    rw [mul_comm]
    exact mul_le_mul_of_nonneg_left hsix (Nat.cast_nonneg _)
  push_cast at hlow hhigh
  rw [← mul_div_assoc]
  constructor
  · rw [le_div_iff₀ hdiv]
    linarith
  · rw [div_lt_iff₀ hdiv]
    linarith

/-- What the registers of a PLL and of an output on it make. -/
theorem outputHz_eq {xtal : Nat} {k : Fin 8} {pll : UInt8}
    (hpll : pll = Si5351a.pllA ∨ pll = Si5351a.pllB) {d : Si5351aDriver} {p q : DividerParams}
    {asked source : Nat} (hp : PllAt xtal pll d p) (hq : OutputAt k pll asked source d.regs q) :
    outputHz xtal d.regs k = some (xtal * p.ratio / q.ratio) := by
  obtain ⟨b, hb⟩ := hq.control
  obtain ⟨hup, hown, hselect⟩ := clkCtrl_bits b pll
  have hbase : (if clkCtrl b pll &&& 0x20 = 0 then 26 else 34 : UInt8) = pllBase pll := by
    rw [pllBase]
    rcases hpll with rfl | rfl
    · rw [if_pos (hselect.mpr (by decide)), if_pos rfl]
    · rw [if_neg (fun h => hselect.mp h rfl), if_neg (by decide)]
  rw [outputHz, hb]
  rw [hup, hown, if_neg (by simp), hbase, hp.holds, hq.holds]
  rfl

/--
**The output has the frequency that was asked for.**

A PLL is set to a frequency and then an output on it, both with success, with any calls
before, between and after them that are not about this PLL or this divider, and any of
those may fail. Then the registers say that the output, if powered, has at least the
frequency asked for, and is less than a fifth of a millionth above it.
-/
theorem output_on_frequency (hfloor : Exact128 floor128) (hhz : RoundedHz pllHz)
    (hxtal : 0 < cfg.xtalFreq.toNat) {k : Fin 8} {pll : UInt8}
    (hpll : pll = Si5351a.pllA ∨ pll = Si5351a.pllB) {freq freqHz freqMillihz : UInt32}
    (hone : 1 ≤ freqHz.toNat) {d d₁ d₂ d₃ d₄ : Si5351aDriver} {ts ts' : List Transfer}
    {between after : List (Si5351aCall × List Transfer)}
    (hset : d.call floor128 pllHz cfg (.setPllFreq pll freq, ts) = (0, d₁))
    (hbetween : ∀ e ∈ between, (pllPart pll).concerns e.1 = false)
    (hd₂ : run (step floor128 pllHz cfg) d₁ between = d₂)
    (hms : d₂.call floor128 pllHz cfg (.setMsFreq (ms k) freqHz freqMillihz pll, ts') = (0, d₃))
    (hafter : ∀ e ∈ after, (pllPart pll).concerns e.1 = false ∧ tunes k e.1 = false)
    (hd₄ : run (step floor128 pllHz cfg) d₃ after = d₄) :
    ∃ f, outputHz cfg.xtalFreq.toNat d₄.regs k = some f
      ∧ (target freqHz freqMillihz : Rat) ≤ 1000 * f
      ∧ 1000 * f < target freqHz freqMillihz * (1 + 1 / 5000000) := by
  -- the PLL is set up, and stays so
  obtain ⟨p, hp⟩ := setPllFreq_locks hfloor hhz hxtal { d with transfers := ts } hpll
    (show (d.call floor128 pllHz cfg (.setPllFreq pll freq, ts)).1 = 0 by rw [hset])
  have hp₁ : PllAt cfg.xtalFreq.toNat pll d₁ p := by
    rw [show d₁ = (d.call floor128 pllHz cfg (.setPllFreq pll freq, ts)).2 by rw [hset]]
    exact hp
  have hp₂ : PllAt cfg.xtalFreq.toNat pll d₂ p := by
    refine hp₁.of_view ?_
    rw [← hd₂]
    exact run_unchanged (view_step_other floor128 pllHz cfg (pllPart pll)) d₁ hbetween
  have hown : (pllPart pll).concerns (.setMsFreq (ms k) freqHz freqMillihz pll) = false := by
    rw [pllPart]
    split <;> rfl
  have hd₃ : d₃ = d₂.step floor128 pllHz cfg (.setMsFreq (ms k) freqHz freqMillihz pll, ts') := by
    rw [step, hms]
  have hp₃ : PllAt cfg.xtalFreq.toNat pll d₃ p := by
    refine hp₂.of_view ?_
    rw [hd₃]
    exact view_step_other floor128 pllHz cfg (pllPart pll) d₂ _ hown
  have hp₄ : PllAt cfg.xtalFreq.toNat pll d₄ p := by
    refine hp₃.of_view ?_
    rw [← hd₄]
    exact run_unchanged (view_step_other floor128 pllHz cfg (pllPart pll)) d₃
      fun e he => (hafter e he).1
  -- the output is set, and stays so
  obtain ⟨q, hq⟩ := setMsFreq_programs hfloor { d₂ with transfers := ts' } hone
    (show (d₂.call floor128 pllHz cfg (.setMsFreq (ms k) freqHz freqMillihz pll, ts')).1 = 0 by
      rw [hms])
  have hq₃ : OutputAt k pll (target freqHz freqMillihz) (1000 * (d₂.remembered pll).toNat)
      d₃.regs q := by
    rw [hd₃]
    exact hq
  have hleft : ∀ r ∈ (16 + ms k) :: dividerRegs (42 + ms k * 8), ∀ (d : Si5351aDriver)
      (e : Si5351aCall × List Transfer), tunes k e.1 = false →
        (d.step floor128 pllHz cfg e).regs r = d.regs r :=
    fun r hr d e he => regs_exec _ e.1 (untuned_apart he hr)
  have hq₄ : OutputAt k pll (target freqHz freqMillihz) (1000 * (d₂.remembered pll).toNat)
      d₄.regs q := by
    refine hq₃.of_regs fun r hr => ?_
    rw [← hd₄]
    exact @run_unchanged _ _ _ _ (fun d => d.regs r) _ (hleft r hr) d₃ _
      fun e he => (hafter e he).2
  refine ⟨_, outputHz_eq hpll hp₄ hq₄, ?_⟩
  exact frequency_bounds hp₂.below hp₂.above hp₂.fast hq₄.six hq₄.low hq₄.high

end Calls

/-- A driver before its init. -/
def coldDriver : Si5351aDriver where
  initialised := false
  pllaConfigured := false
  pllaFreq := 0
  pllbConfigured := false
  pllbFreq := 0
  devStatus := ⟨0, 0, 0, 0, 0⟩
  devIntStatus := ⟨0, 0, 0, 0⟩
  regs _ := 0
  transfers := []

/-- A crystal of 25 MHz. -/
def dts : Si5351aDts := { xtalFreq := 25000000, crystalLoadCapacitance := 8 }

/-- A transfer that fails when the chip has taken three values. -/
def torn : Transfer := ⟨-5, 3, 0, by decide⟩

/-- Output 2 at 14.0971 MHz on PLL A, whose frequency is remembered a hertz low, while PLL B and
output 1 fail. -/
theorem output_on_frequency_beacon :
    let step := step doubleFloor128 doubleHz dts
    let d₁ := step coldDriver (.setPllFreq Si5351a.pllA 800000175, [])
    let d₂ := run step d₁ [(.setPllFreq Si5351a.pllB 700000000, [torn])]
    let d₃ := step d₂ (.setMsFreq 2 14097100 0 Si5351a.pllA, [])
    let d₄ := run step d₃ [(.setMs 1 8 1 4 Si5351a.pllB, [torn]), (.enableOutput 2 true, [])]
    d₁.remembered Si5351a.pllA = 800000174
      ∧ ∃ f, outputHz 25000000 d₄.regs 2 = some f ∧ (target 14097100 0 : Rat) ≤ 1000 * f
        ∧ 1000 * f < target 14097100 0 * (1 + 1 / 5000000) := by
  intro step d₁ d₂ d₃ d₄
  refine ⟨by decide +kernel, ?_⟩
  have hset : coldDriver.call doubleFloor128 doubleHz dts (.setPllFreq Si5351a.pllA 800000175, [])
      = (0, d₁) := Prod.ext (by decide +kernel) rfl
  have hms : d₂.call doubleFloor128 doubleHz dts (.setMsFreq (ms 2) 14097100 0 Si5351a.pllA, [])
      = (0, d₃) := Prod.ext (by decide +kernel) rfl
  refine output_on_frequency exact_doubleFloor128 rounded_doubleHz (by decide) (Or.inl rfl)
    (by decide) hset ?_ rfl hms ?_ rfl
  · intro e he
    rw [List.mem_singleton.mp he]
    rfl
  · intro e he
    rcases List.mem_cons.mp he with rfl | he
    · exact ⟨rfl, rfl⟩
    · rw [List.mem_singleton.mp he]
      exact ⟨rfl, rfl⟩

end MiniHF.Si5351aDriver
