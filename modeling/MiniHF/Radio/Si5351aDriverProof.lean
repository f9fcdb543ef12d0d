import MiniHF.Radio.DividerProof
import MiniHF.Radio.Si5351aDriver

/-!
# What the calls of the driver do to the chip

One lemma for each call: what it sends and remembers, and which registers it leaves
alone. The two calls that take a frequency refuse, or are one of the two that take a
multiple or a divider.
-/

namespace MiniHF.Si5351aDriver

open Registers I2cChip Si5351a Si5351aPlls

/-! ## What a call does -/

theorem i2cWriteDt_eq (d : Si5351aDriver) (buf : List UInt8) :
    d.i2cWriteDt buf = (d.next.ret,
      { d with
        regs := deliver behind d.regs (taken d.next buf)
        transfers := d.transfers.tail }) := by
  rw [i2cWriteDt, writeDt_eq]

theorem readReg_eq (d : Si5351aDriver) (reg : UInt8) :
    d.readReg reg = (d.next.ret,
      if d.next.ret = 0 ∧ volatile reg = false then d.regs reg else d.next.shown,
      { d with transfers := d.transfers.tail }) := by
  rw [readReg, i2cWriteReadDt, writeReadDt_eq]

/-- What the next transfer returns, as the calls that only write see it. -/
theorem bus_result (d : Si5351aDriver) : d.bus.busResult = d.next.ret := by
  obtain ⟨⟨_, transfers⟩, _, _, _, _, _, _, _⟩ := d
  cases transfers <;> rfl

/-- The registers of a divider. -/
def dividerRegs (base : UInt8) : List UInt8 := span behind base 8

/-- A PLL is set up, at a frequency. -/
def remember (d : Si5351aDriver) (pll : UInt8) (freq : UInt32) : Si5351aDriver :=
  if pll = pllA then { d with pllaConfigured := true, pllaFreq := freq }
  else { d with pllbConfigured := true, pllbFreq := freq }

section Calls

variable {floor128 : UInt32 → UInt32 → Nat} {pllHz : UInt32 → UInt32 → UInt32 → UInt32 → UInt32}
variable {cfg : Si5351aDts} {a b c : UInt32} {ms pll : UInt8}

/-- A call that sends nothing and remembers nothing does nothing. -/
theorem carryOut_silent {call : Si5351aPlls → Int × Si5351aPlls} {d : Si5351aDriver} {ret : Int}
    (h : call d.bus = (ret, d.bus)) : d.carryOut call = (ret, d) := by
  rw [carryOut, h]
  rfl

theorem setPll_refused (d : Si5351aDriver) (h : ¬ PllArgs a b c pll) :
    d.setPll floor128 pllHz cfg pll a b c = (-22, d) :=
  carryOut_silent (setPll_refuses floor128 pllHz d.bus cfg.toSi5351aConfig h)

/-- **`si5351a_set_pll` on the chip.** -/
theorem setPll_sends (d : Si5351aDriver) (h : PllArgs a b c pll) :
    d.setPll floor128 pllHz cfg pll a b c =
      let (ret, d) := d.i2cWriteDt (pllBase pll :: dividerBytes floor128 a b c)
      if ret ≠ 0 then (ret, d) else (0, d.remember pll (pllHz cfg.xtalFreq a b c)) := by
  rw [setPll, carryOut, setPll_eq floor128 pllHz d.bus cfg.toSi5351aConfig h, bus_result]
  dsimp only
  rw [i2cWriteDt_eq]
  dsimp only
  split
  · dsimp only [bus, sendAll, List.nil_append, List.foldl_cons, List.foldl_nil]
    rw [writeDt_eq]
  · rw [Si5351aPlls.remember, remember]
    split
    · dsimp only [bus, sendAll, List.nil_append, List.foldl_cons, List.foldl_nil]
      rw [writeDt_eq]
    · dsimp only [bus, sendAll, List.nil_append, List.foldl_cons, List.foldl_nil]
      rw [writeDt_eq]

theorem setMs_refused (d : Si5351aDriver) (h : ¬ MsArgs ms a b c pll) :
    d.setMs floor128 ms a b c pll = (-22, d) := by
  refine carryOut_silent ?_
  have hsame : d.bus.toSi5351a.setMs floor128 ms a b c pll = (-22, d.bus.toSi5351a) := by
    unfold Si5351a.setMs
    split
    · rfl
    split
    · rfl
    split
    · rfl
    split
    · rfl
    split
    · rfl
    next hms ha hb hc hpll => exact absurd ⟨hms, ha, hb, hc, hpll⟩ h
  rw [hsame]

/-- **`si5351a_set_ms` on the chip.** -/
theorem setMs_sends (d : Si5351aDriver) (h : MsArgs ms a b c pll) :
    d.setMs floor128 ms a b c pll =
      let (ret, d) := d.i2cWriteDt ((42 + ms * 8) :: dividerBytes floor128 a b c)
      if ret ≠ 0 then (ret, d) else d.writeReg (16 + ms) (clkCtrl b pll) := by
  rw [setMs, carryOut, Si5351a.setMs]
  rw [if_neg h.output, if_neg h.whole, if_neg h.fraction, if_neg h.denominator, if_neg h.knownPll]
  rw [writeMultiple, i2cWrite_eq, bus_result]
  dsimp only
  rw [i2cWriteDt_eq]
  dsimp only
  split
  · dsimp only [bus, sendAll, List.nil_append, List.foldl_cons, List.foldl_nil]
    rw [writeDt_eq]
  · rw [Si5351a.writeReg, i2cWrite_eq]
    dsimp only [bus, sendAll, List.nil_append, List.cons_append, List.foldl_cons, List.foldl_nil,
      busResult]
    rw [writeDt_eq, writeDt_eq, writeReg, i2cWriteDt_eq]
    obtain ⟨⟨_, transfers⟩, _, _, _, _, _, _, _⟩ := d
    rcases transfers with _ | ⟨t, _ | ⟨u, us⟩⟩ <;> rfl

/-- `si5351a_set_pll_freq` refuses, or sets a multiple that the request alone decides. -/
theorem setPllFreq_sets (cfg : Si5351aDts) (pll : UInt8) (freq : UInt32) :
    (∀ d : Si5351aDriver, d.setPllFreq floor128 pllHz cfg pll freq = (-22, d)) ∨
      ∃ a b c, ∀ d : Si5351aDriver,
        d.setPllFreq floor128 pllHz cfg pll freq = d.setPll floor128 pllHz cfg pll a b c := by
  by_cases hvco : freq.toUInt64 < pllVcoMin ∨ freq.toUInt64 > pllVcoMax
  · exact Or.inl fun d => carryOut_silent (if_pos hvco)
  · refine Or.inr ?_
    by_cases hwhole : freq.toUInt64 % cfg.xtalFreq.toUInt64 = 0
    · refine ⟨freq / cfg.xtalFreq, 0, 1, fun d => ?_⟩
      rw [setPllFreq, setPll]
      congr 1
      funext bus
      rw [Si5351aPlls.setPllFreq, if_neg hvco]
      exact if_pos hwhole
    · refine ⟨freq / cfg.xtalFreq, (freq.toUInt64 % cfg.xtalFreq.toUInt64
        * rfracDenom.toUInt32.toUInt64 / cfg.xtalFreq.toUInt64).toUInt32, rfracDenom.toUInt32,
        fun d => ?_⟩
      rw [setPllFreq, setPll]
      congr 1
      funext bus
      rw [Si5351aPlls.setPllFreq, if_neg hvco]
      exact if_neg hwhole

/-- `si5351a_set_ms_freq` refuses, or sets a divider that the request and the frequencies of the
PLLs decide. -/
theorem setMsFreq_sets (ms : UInt8) (freqHz freqMillihz : UInt32) (pll : UInt8)
    (pllaFreq pllbFreq : UInt32) :
    (∀ d : Si5351aDriver, d.pllaFreq = pllaFreq → d.pllbFreq = pllbFreq →
        d.setMsFreq floor128 ms freqHz freqMillihz pll = (-22, d)) ∨
      ∃ a b, ∀ d : Si5351aDriver, d.pllaFreq = pllaFreq → d.pllbFreq = pllbFreq →
        d.setMsFreq floor128 ms freqHz freqMillihz pll
          = d.setMs floor128 ms a b rfracDenom.toUInt32 pll := by
  by_cases hargs : FreqArgs ⟨pllaFreq, pllbFreq, [], []⟩ ms freqHz freqMillihz pll
  · obtain ⟨hms, hpll, hth, hlocked, hasked⟩ := hargs
    let source := (Si5351a.pllFreq ⟨pllaFreq, pllbFreq, [], []⟩ pll).toUInt64 * 1000
    let asked := freqHz.toUInt64 * 1000 + freqMillihz.toUInt64
    refine Or.inr ⟨(source / asked).toUInt32,
      (source % asked * rfracDenom.toUInt32.toUInt64 / asked).toUInt32, fun d ha hb => ?_⟩
    have hfreq : d.bus.toSi5351a.pllFreq pll = Si5351a.pllFreq ⟨pllaFreq, pllbFreq, [], []⟩ pll := by
      rw [Si5351a.pllFreq, Si5351a.pllFreq, ← ha, ← hb]
      rfl
    have hnz : freqHz.toUInt64 * 1000 + freqMillihz.toUInt64 ≠ 0 := by
      intro h0
      have hF := target_toNat freqHz freqMillihz
      rw [h0] at hF
      exact hasked hF.symm
    rw [setMsFreq, setMs, carryOut, carryOut, Si5351a.setMsFreq]
    rw [if_neg hms, if_neg hpll, if_neg hth]
    dsimp only
    rw [hfreq, if_neg hlocked, if_neg hnz]
  · refine Or.inl fun d ha hb => carryOut_silent ?_
    have hargs' : ¬ FreqArgs d.bus.toSi5351a ms freqHz freqMillihz pll := by
      intro h
      refine hargs ⟨h.output, h.knownPll, h.thousandths, ?_, h.asked⟩
      have hlocked := h.locked
      rw [Si5351a.pllFreq, show d.bus.pllaFreq = pllaFreq from ha,
        show d.bus.pllbFreq = pllbFreq from hb] at hlocked
      exact hlocked
    rw [setMsFreq_refuses floor128 _ _ _ _ _ hargs']

end Calls

/-! ## Registers that are left alone -/

theorem regs_send (d : Si5351aDriver) {reg r : UInt8} {values : List UInt8}
    (h : r ∉ span behind reg values.length) :
    (d.i2cWriteDt (reg :: values)).2.regs r = d.regs r :=
  writeDt_outside d.toI2cChip h

theorem regs_write (d : Si5351aDriver) {reg r : UInt8} (value : UInt8) (h : r ≠ reg) :
    (d.writeReg reg value).2.regs r = d.regs r :=
  regs_send d (by rwa [List.length_singleton, span, span, List.mem_singleton])

theorem regs_read (d : Si5351aDriver) (reg : UInt8) : (d.readReg reg).2.2.regs = d.regs := by
  rw [readReg_eq]

theorem regs_waitReady (d : Si5351aDriver) (n : Nat) : (d.waitReady n).2.regs = d.regs := by
  induction n generalizing d with
  | zero => rfl
  | succ n ih =>
      rw [waitReady]
      dsimp only
      split
      · exact regs_read d 0
      · split
        · exact (ih _).trans (regs_read d 0)
        · exact regs_read d 0

theorem regs_writeEach (d : Si5351aDriver) (value : UInt8) {regs : List UInt8} {r : UInt8}
    (h : r ∉ regs) : (d.writeEach value regs).2.regs r = d.regs r := by
  induction regs generalizing d with
  | nil => rfl
  | cons reg regs ih =>
      have hwrite := regs_write d value (List.ne_of_not_mem_cons h)
      rw [writeEach]
      dsimp only
      split
      · exact hwrite
      · exact (ih _ (List.not_mem_of_not_mem_cons h)).trans hwrite

theorem regs_enableSpreadSpectrum (d : Si5351aDriver) (enable : Bool) {r : UInt8}
    (h : r ≠ spreadSpectrumParameters) : (d.enableSpreadSpectrum enable).2.regs r = d.regs r := by
  have hread := congrFun (regs_read d spreadSpectrumParameters) r
  rw [enableSpreadSpectrum]
  dsimp only
  split
  · exact hread
  · exact (regs_write _ _ h).trans hread

theorem regs_updateStatus (d : Si5351aDriver) : d.updateStatus.2.regs = d.regs := by
  have hsys : d.updateSysStatus.2.regs = d.regs := by
    rw [updateSysStatus]
    dsimp only
    split <;> exact regs_read d 0
  have hint : ∀ d : Si5351aDriver, d.updateIntStatus.2.regs = d.regs := by
    intro d
    rw [updateIntStatus]
    dsimp only
    split <;> exact regs_read d 1
  rw [updateStatus]
  dsimp only
  split
  · exact hsys
  · exact (hint _).trans hsys

theorem regs_enableOutput (d : Si5351aDriver) (out : UInt8) (enable : Bool) {r : UInt8}
    (h : r ≠ outputEnableControl) : (d.enableOutput out enable).2.regs r = d.regs r := by
  have hread := congrFun (regs_read d outputEnableControl) r
  rw [enableOutput]
  split
  · rfl
  · dsimp only
    split
    · exact hread
    · exact (regs_write _ _ h).trans hread

/-- The registers that a call may write. -/
def touches : Si5351aCall → List UInt8
  | .init _ => outputEnableControl :: crystalLoad :: spreadSpectrumParameters :: clkRegs
  | .setPll pll .. => dividerRegs (pllBase pll)
  | .setPllFreq pll _ => dividerRegs (pllBase pll)
  | .setMs ms .. => if ms > 7 then [] else (16 + ms) :: dividerRegs (42 + ms * 8)
  | .setMsFreq ms .. => if ms > 7 then [] else (16 + ms) :: dividerRegs (42 + ms * 8)
  | .resetPll .. => [177]
  | .enableOutput .. => [outputEnableControl]
  | .enableSpreadSpectrum _ => [spreadSpectrumParameters]
  | .updateStatus => []

section Frames

variable {floor128 : UInt32 → UInt32 → Nat} {pllHz : UInt32 → UInt32 → UInt32 → UInt32 → UInt32}
variable {cfg : Si5351aDts}

theorem regs_init (d : Si5351aDriver) (i2cIsReady : Bool) {r : UInt8}
    (h : r ∉ touches (.init i2cIsReady)) : (d.init cfg i2cIsReady).2.regs r = d.regs r := by
  rw [touches, List.mem_cons, List.mem_cons, List.mem_cons, not_or, not_or, not_or] at h
  obtain ⟨hcontrol, hload, hspread, hclk⟩ := h
  rw [init]
  split
  · rfl
  have h₁ := congrFun (regs_waitReady d 1000) r
  generalize d.waitReady 1000 = waited at h₁ ⊢
  have h₂ := (regs_write waited.2 0xFF hcontrol).trans h₁
  have h₃ := (regs_writeEach (waited.2.writeReg outputEnableControl 0xFF).2 0x80 hclk).trans h₂
  dsimp only
  split
  · exact h₁
  split
  · exact h₂
  split
  · exact h₃
  split
  · exact h₃
  · rename_i load _
    exact (regs_enableSpreadSpectrum _ false hspread).trans ((regs_write _ load hload).trans h₃)

theorem regs_setPll (d : Si5351aDriver) (pll : UInt8) (a b c : UInt32) {r : UInt8}
    (h : r ∉ dividerRegs (pllBase pll)) :
    (d.setPll floor128 pllHz cfg pll a b c).2.regs r = d.regs r := by
  by_cases hargs : PllArgs a b c pll
  · have hsend := @regs_send d (pllBase pll) r (dividerBytes floor128 a b c) h
    rw [setPll_sends d hargs]
    dsimp only
    split
    · exact hsend
    · rw [remember]
      split <;> exact hsend
  · rw [setPll_refused d hargs]

theorem regs_setMs (d : Si5351aDriver) (ms : UInt8) (a b c : UInt32) (pll : UInt8) {r : UInt8}
    (h : r ∉ touches (.setMs ms a b c pll)) :
    (d.setMs floor128 ms a b c pll).2.regs r = d.regs r := by
  by_cases hargs : MsArgs ms a b c pll
  · rw [touches, if_neg hargs.output] at h
    have hsend := @regs_send d (42 + ms * 8) r (dividerBytes floor128 a b c)
      (List.not_mem_of_not_mem_cons h)
    rw [setMs_sends d hargs]
    dsimp only
    split
    · exact hsend
    · exact (regs_write _ _ (List.ne_of_not_mem_cons h)).trans hsend
  · rw [setMs_refused d hargs]

/-- **A call writes its own registers only.** -/
theorem regs_exec (d : Si5351aDriver) (call : Si5351aCall) {r : UInt8} (h : r ∉ touches call) :
    (d.exec floor128 pllHz cfg call).2.regs r = d.regs r := by
  cases call with
  | init i2cIsReady => exact regs_init d i2cIsReady h
  | setPll pll a b c => exact regs_setPll d pll a b c h
  | setPllFreq pll freq =>
      rw [exec]
      rcases @setPllFreq_sets floor128 pllHz cfg pll freq with href | ⟨a, b, c, hsets⟩
      · rw [href]
      · rw [hsets]
        exact regs_setPll d pll a b c h
  | setMs ms a b c pll => exact regs_setMs d ms a b c pll h
  | setMsFreq ms freqHz freqMillihz pll =>
      rw [exec]
      rcases @setMsFreq_sets floor128 ms freqHz freqMillihz pll d.pllaFreq d.pllbFreq with
        href | ⟨a, b, hsets⟩
      · rw [href d rfl rfl]
      · rw [hsets d rfl rfl]
        exact regs_setMs d ms a b _ pll h
  | resetPll resetA resetB => exact regs_write d _ (fun hr => h (List.mem_singleton.mpr hr))
  | enableOutput output enable =>
      exact regs_enableOutput d output enable (fun hr => h (List.mem_singleton.mpr hr))
  | enableSpreadSpectrum enable =>
      exact regs_enableSpreadSpectrum d enable (fun hr => h (List.mem_singleton.mpr hr))
  | updateStatus => exact congrFun (regs_updateStatus d) r

end Frames

end MiniHF.Si5351aDriver
