import MiniHF.Radio.OutputFreqProof

/-!
# Nothing is put out that was not asked for

`si5351a_init` leaves every output disabled and powered down and no PLL set up. From
then on an output is enabled only by `si5351a_enable_output`, powered up only by a
call that sets its divider, and a PLL gets a frequency only by a call that sets it,
whatever happens on the bus and also if the chip is initialised again.
-/

namespace MiniHF.Si5351aDriver

open Registers Runs I2cChip Si5351a Si5351aPlls Si5351aPart

/-! ## What init leaves -/

theorem write_succeeded {d : Si5351aDriver} {reg value : UInt8}
    (h : ¬ (d.writeReg reg value).1 < 0) : (d.writeReg reg value).2.regs reg = value :=
  write_sent d (Int.le_antisymm (writeDt_nonpos d.toI2cChip [reg, value]) (Int.not_lt.mp h))

theorem writeEach_succeeded {d : Si5351aDriver} {value : UInt8} {regs : List UInt8}
    (h : ¬ (d.writeEach value regs).1 < 0) {r : UInt8} (hr : r ∈ regs) :
    (d.writeEach value regs).2.regs r = value := by
  induction regs generalizing d with
  | nil => cases hr
  | cons reg regs ih =>
      rw [writeEach] at h ⊢
      dsimp only at h ⊢
      split at h
      · next hfail => exact absurd hfail h
      next hsent =>
      rw [if_neg hsent]
      by_cases hbehind : r ∈ regs
      · exact ih h hbehind
      · rcases List.mem_cons.mp hr with rfl | hmem
        · rw [regs_writeEach _ _ hbehind, write_succeeded hsent]
        · exact absurd hmem hbehind

/-- No output is enabled or powered up, and no PLL is set up. -/
structure Quiet (d : Si5351aDriver) : Prop where
  disabled : d.regs outputEnableControl = 0xFF
  down : ∀ k : Fin 8, d.regs (16 + ms k) = 0x80
  unset : d.pllaFreq = 0 ∧ d.pllbFreq = 0 ∧ d.pllaConfigured = false ∧ d.pllbConfigured = false

variable {cfg : Si5351aDts}

theorem init_quiet {d : Si5351aDriver} {i2cIsReady : Bool} (h : (d.init cfg i2cIsReady).1 = 0) :
    Quiet (d.init cfg i2cIsReady).2 := by
  have hclk : ∀ k : Fin 8, 16 + ms k ∈ clkRegs ∧ 16 + ms k ≠ crystalLoad
      ∧ 16 + ms k ≠ spreadSpectrumParameters := by decide +kernel
  rw [init] at h ⊢
  split at h
  · exact absurd h (show ¬ (-19 : Int) = 0 by decide)
  next hready =>
  rw [if_neg hready]
  generalize d.waitReady 1000 = waited at h ⊢
  dsimp only at h ⊢
  split at h
  · next hfail => exact absurd h hfail
  next hwaited =>
  rw [if_neg hwaited]
  split at h
  · next hfail => rw [h] at hfail; exact absurd hfail (by decide)
  next hcontrol =>
  rw [if_neg hcontrol]
  split at h
  · next hfail => rw [h] at hfail; exact absurd hfail (by decide)
  next heach =>
  rw [if_neg heach]
  split at h
  · exact absurd h (show ¬ (-22 : Int) = 0 by decide)
  next load hload =>
  constructor
  case disabled =>
    dsimp only
    rw [regs_enableSpreadSpectrum _ _ (by decide), regs_write _ _ (by decide),
      regs_writeEach _ _ (by decide), write_succeeded hcontrol]
  case down =>
    intro k
    obtain ⟨hmem, hne, hne'⟩ := hclk k
    dsimp only
    rw [regs_enableSpreadSpectrum _ _ hne', regs_write _ _ hne, writeEach_succeeded heach hmem]
  case unset => exact ⟨rfl, rfl, rfl, rfl⟩

/-! ## Initialising again -/

/-- What init does to a register that it writes: its value, or nothing. -/
theorem init_control (d : Si5351aDriver) (i2cIsReady : Bool) :
    (d.init cfg i2cIsReady).2.regs outputEnableControl = 0xFF
      ∨ (d.init cfg i2cIsReady).2.regs outputEnableControl = d.regs outputEnableControl := by
  rw [init]
  split
  · exact Or.inr rfl
  have h₁ := congrFun (regs_waitReady d 1000) outputEnableControl
  generalize d.waitReady 1000 = waited at h₁ ⊢
  have h₂ := regs_written waited.2 outputEnableControl 0xFF
  rw [h₁] at h₂
  have h₃ := @regs_writeEach (waited.2.writeReg outputEnableControl 0xFF).2 0x80 clkRegs
    outputEnableControl (by decide)
  rw [← h₃] at h₂
  dsimp only
  split
  · exact Or.inr h₁
  split
  · rwa [h₃] at h₂
  split
  · exact h₂
  split
  · exact h₂
  · rename_i load _
    dsimp only
    rwa [regs_enableSpreadSpectrum _ _ (by decide), regs_write _ _ (by decide)]

theorem writeEach_written (d : Si5351aDriver) (value : UInt8) (regs : List UInt8) (r : UInt8) :
    (d.writeEach value regs).2.regs r = value ∨ (d.writeEach value regs).2.regs r = d.regs r := by
  induction regs generalizing d with
  | nil => exact Or.inr rfl
  | cons reg regs ih =>
      have hwrite : (d.writeReg reg value).2.regs r = value
          ∨ (d.writeReg reg value).2.regs r = d.regs r := by
        by_cases hr : r = reg
        · subst hr
          exact regs_written d r value
        · exact Or.inr (regs_write d value hr)
      rw [writeEach]
      dsimp only
      split
      · exact hwrite
      · rcases ih (d.writeReg reg value).2 with hnew | hold
        · exact Or.inl hnew
        · rwa [hold]

theorem init_down (d : Si5351aDriver) (i2cIsReady : Bool) (k : Fin 8) :
    (d.init cfg i2cIsReady).2.regs (16 + ms k) = 0x80
      ∨ (d.init cfg i2cIsReady).2.regs (16 + ms k) = d.regs (16 + ms k) := by
  have hclk : ∀ k : Fin 8, 16 + ms k ≠ outputEnableControl ∧ 16 + ms k ≠ crystalLoad
      ∧ 16 + ms k ≠ spreadSpectrumParameters := by decide +kernel
  obtain ⟨hcontrol, hload, hspread⟩ := hclk k
  rw [init]
  split
  · exact Or.inr rfl
  have h₁ := congrFun (regs_waitReady d 1000) (16 + ms k)
  generalize d.waitReady 1000 = waited at h₁ ⊢
  have h₂ := (regs_write waited.2 0xFF hcontrol).trans h₁
  have h₃ := writeEach_written (waited.2.writeReg outputEnableControl 0xFF).2 0x80 clkRegs
    (16 + ms k)
  rw [h₂] at h₃
  dsimp only
  split
  · exact Or.inr h₁
  split
  · exact Or.inr h₂
  split
  · exact h₃
  split
  · exact h₃
  · rename_i load _
    dsimp only
    rwa [regs_enableSpreadSpectrum _ _ hspread, regs_write _ _ hload]

/-! ## From then on -/

section Runs

variable {floor128 : UInt32 → UInt32 → Nat} {pllHz : UInt32 → UInt32 → UInt32 → UInt32 → UInt32}

/-- The register that all outputs share belongs to no divider. -/
theorem control_apart : (∀ pll, outputEnableControl ∉ dividerRegs (pllBase pll)) ∧
    ∀ out : UInt8, outputEnableControl
      ∉ (if out > 7 then [] else (16 + out) :: dividerRegs (42 + out * 8)) := by
  have hms : ∀ m : Fin 8, outputEnableControl ∉ (16 + ms m) :: dividerRegs (42 + ms m * 8) := by
    decide +kernel
  constructor
  · intro pll
    rw [pllBase]
    split <;> decide +kernel
  · intro out
    split
    · exact List.not_mem_nil
    next hle =>
      obtain ⟨m, rfl⟩ := exists_ms hle
      exact hms m

/-- The output is disabled. -/
def Disabled (k : Fin 8) (d : Si5351aDriver) : Prop :=
  d.regs outputEnableControl &&& 1 <<< ms k = 1 <<< ms k

theorem Disabled.of_regs {k : Fin 8} {d d' : Si5351aDriver} (h : Disabled k d)
    (hsame : d'.regs outputEnableControl = d.regs outputEnableControl) : Disabled k d' := by
  rw [Disabled, hsame]
  exact h

theorem Disabled.of_all {k : Fin 8} {d : Si5351aDriver}
    (h : d.regs outputEnableControl = 0xFF) : Disabled k d := by
  have hall : ∀ k : Fin 8, (0xFF : UInt8) &&& 1 <<< ms k = 1 <<< ms k := by decide +kernel
  rw [Disabled, h]
  exact hall k

/-- Disabling does not enable. -/
theorem Disabled.enableOutput {k : Fin 8} {d : Si5351aDriver} (h : Disabled k d) {out : UInt8}
    {enable : Bool} (hother : out ≠ ms k ∨ enable = false) :
    Disabled k (d.enableOutput out enable).2 := by
  by_cases hout : out = ms k
  · obtain rfl : enable = false := hother.resolve_left fun hne => hne hout
    subst hout
    have hread := congrFun (regs_read d outputEnableControl) outputEnableControl
    rw [Si5351aDriver.enableOutput]
    split
    · exact h
    dsimp only
    split
    · exact h.of_regs hread
    · rcases regs_written (d.readReg outputEnableControl).2.2 outputEnableControl
        ((d.readReg outputEnableControl).2.1 ||| 1 <<< ms k) with hnew | hold
      · have hset := bits_set (d.readReg outputEnableControl).2.1 (1 <<< ms k) (1 <<< ms k)
        rw [UInt8.or_self, UInt8.and_self] at hset
        rw [Disabled, if_neg Bool.false_ne_true, hnew]
        exact hset
      · rw [if_neg Bool.false_ne_true]
        exact h.of_regs (hold.trans hread)
  · -- the bit of this output is put back
    have hview := view_enableOutput (.output k) d enable (decide_eq_false hout)
    have hbits := (view_eq_iff.mp hview).1 outputEnableControl
    rw [mask_outputEnable] at hbits
    rw [Disabled, hbits]
    exact h

/-- Only `si5351a_enable_output` enables an output. -/
theorem disabled_step {k : Fin 8} (d : Si5351aDriver) (e : Si5351aCall × List Transfer)
    (hother : e.1 ≠ .enableOutput (ms k) true) (h : Disabled k d) :
    Disabled k (d.step floor128 pllHz cfg e) := by
  obtain ⟨hpll, hout⟩ := control_apart
  have hkeeps : outputEnableControl ∉ touches e.1 → Disabled k (d.step floor128 pllHz cfg e) :=
    fun hnot => h.of_regs (regs_exec _ e.1 hnot)
  obtain ⟨call, transfers⟩ := e
  cases call with
  | init i2cIsReady =>
      rcases @init_control cfg { d with transfers } i2cIsReady with hnew | hold
      · exact Disabled.of_all hnew
      · exact h.of_regs hold
  | setPll pll a b c => exact hkeeps (hpll pll)
  | setPllFreq pll freq => exact hkeeps (hpll pll)
  | setMs out a b c pll => exact hkeeps (hout out)
  | setMsFreq out freqHz freqMillihz pll => exact hkeeps (hout out)
  | resetPll resetA resetB => exact hkeeps (show outputEnableControl ∉ [177] by decide)
  | enableSpreadSpectrum enable =>
      exact hkeeps (show outputEnableControl ∉ [spreadSpectrumParameters] by decide)
  | updateStatus => exact hkeeps List.not_mem_nil
  | enableOutput out enable =>
      have hdisabled : Disabled k { d with transfers } := h
      refine hdisabled.enableOutput ?_
      by_cases hon : enable = true
      · subst hon
        exact Or.inl fun hk => hother (by rw [hk])
      · exact Or.inr (Bool.eq_false_iff.mpr hon)

/-- The output is powered down. -/
def Down (k : Fin 8) (d : Si5351aDriver) : Prop := d.regs (16 + ms k) = 0x80

/-- Only a call that sets its divider powers an output up. -/
theorem down_step {k : Fin 8} (d : Si5351aDriver) (e : Si5351aCall × List Transfer)
    (hother : (∃ i2cIsReady, e.1 = .init i2cIsReady) ∨ tunes k e.1 = false) (h : Down k d) :
    Down k (d.step floor128 pllHz cfg e) := by
  rcases hother with ⟨i2cIsReady, hinit⟩ | hother
  · obtain ⟨call, transfers⟩ := e
    subst hinit
    rcases @init_down cfg { d with transfers } i2cIsReady k with hnew | hold
    · exact hnew
    · exact hold.trans h
  · have hsame : (d.step floor128 pllHz cfg e).regs (16 + ms k) = d.regs (16 + ms k) :=
      regs_exec _ e.1 (untuned_apart hother List.mem_cons_self)
    exact hsame.trans h

/-- The calls that set the divider of an output. -/
def setsDivider (k : Fin 8) : Si5351aCall → Bool
  | .setMs out .. => out = ms k
  | .setMsFreq out .. => out = ms k
  | _ => false

theorem tunes_of_not_sets {k : Fin 8} {call : Si5351aCall} (h : setsDivider k call = false) :
    (∃ i2cIsReady, call = .init i2cIsReady) ∨ tunes k call = false := by
  cases call with
  | init i2cIsReady => exact Or.inl ⟨i2cIsReady, rfl⟩
  | setMs out a b c pll => exact Or.inr h
  | setMsFreq out freqHz freqMillihz pll => exact Or.inr h
  | _ => exact Or.inr rfl

/-- What is powered down has no frequency. -/
theorem Down.silent {k : Fin 8} {d : Si5351aDriver} (h : Down k d) (xtal : Nat) :
    outputHz xtal d.regs k = none := by
  have hbit : (0x80 : UInt8) &&& 0x80 ≠ 0 := by decide
  rw [outputHz, h, if_pos (Or.inl hbit)]

/--
**Nothing is put out that was not asked for.**

After `si5351a_init` has succeeded all outputs are disabled and powered down. From then
on, over every run of calls and whatever fails, an output that is enabled has been
enabled by a call for it, and an output that has a frequency has been set by a call
for it.
-/
theorem quiet_until_called {d d₀ : Si5351aDriver} {i2cIsReady : Bool} {ts : List Transfer}
    (hinit : d.call floor128 pllHz cfg (.init i2cIsReady, ts) = (0, d₀))
    (es : List (Si5351aCall × List Transfer)) :
    Quiet d₀ ∧ ∀ k : Fin 8,
      (¬ Disabled k (run (step floor128 pllHz cfg) d₀ es) →
        ∃ e ∈ es, e.1 = .enableOutput (ms k) true) ∧
      ((∃ xtal, outputHz xtal (run (step floor128 pllHz cfg) d₀ es).regs k ≠ none) →
        ∃ e ∈ es, setsDivider k e.1 = true) := by
  have hquiet : Quiet d₀ := by
    have hret : ({ d with transfers := ts }.init cfg i2cIsReady).1 = 0 := congrArg Prod.fst hinit
    have hleft : ({ d with transfers := ts }.init cfg i2cIsReady).2 = d₀ := congrArg Prod.snd hinit
    rw [← hleft]
    exact init_quiet hret
  refine ⟨hquiet, fun k => ⟨fun henabled => ?_, fun ⟨xtal, hsome⟩ => ?_⟩⟩
  · refine Classical.byContradiction fun hnone => henabled ?_
    refine run_keeps disabled_step (Disabled.of_all hquiet.disabled) ?_
    exact fun e he heq => hnone ⟨e, he, heq⟩
  · refine Classical.byContradiction fun hnone => hsome (Down.silent ?_ xtal)
    refine run_keeps down_step (hquiet.down k) ?_
    exact fun e he => tunes_of_not_sets (Bool.eq_false_iff.mpr fun heq => hnone ⟨e, he, heq⟩)

end Runs

/-- The chip is up at the second look. Output 3 is enabled then, and output 5 is not. -/
theorem quiet_until_called_one :
    let init := coldDriver.call wholeFloor128 wholeHz dts (.init true, [⟨0, 0, 0x80, by decide⟩])
    let d := run (step wholeFloor128 wholeHz dts) init.2
      [(.setMs 3 8 1 4 Si5351a.pllA, [torn]), (.enableOutput 3 true, [])]
    Quiet init.2 ∧ Disabled 5 d ∧ outputHz 25000000 d.regs 5 = none := by
  intro init d
  have hinit : init = (0, init.2) := Prod.ext (by decide +kernel) rfl
  obtain ⟨hquiet, hcalled⟩ := quiet_until_called hinit
    [(.setMs 3 8 1 4 Si5351a.pllA, [torn]), (.enableOutput 3 true, [])]
  obtain ⟨henabled, htuned⟩ := hcalled 5
  refine ⟨hquiet, Classical.byContradiction fun hon => ?_, Classical.byContradiction fun hsome => ?_⟩
  · obtain ⟨e, he, heq⟩ := henabled hon
    rcases List.mem_cons.mp he with rfl | he
    · cases heq
    · rw [List.mem_singleton.mp he] at heq
      exact absurd heq (by decide)
  · obtain ⟨e, he, heq⟩ := htuned ⟨25000000, hsome⟩
    rcases List.mem_cons.mp he with rfl | he
    · exact absurd heq (by decide)
    · rw [List.mem_singleton.mp he] at heq
      cases heq

end MiniHF.Si5351aDriver
