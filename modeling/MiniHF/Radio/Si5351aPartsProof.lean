import MiniHF.Lib.Runs
import MiniHF.Radio.Si5351aDriverProof

/-!
# PLLs and outputs do not get in each other's way

A PLL is eight registers and what the driver remembers of it; an output is eight
registers, a control register and one bit of a register that all outputs share. A
call writes the registers of what it is about, and puts the other bits of the shared
one back. So what becomes of a PLL or of an output depends on the calls about it
alone, whatever else is called and whatever fails; an output's frequency is worked
out from what is remembered of the PLLs, and these calls are about it, too.
-/

namespace MiniHF

open Registers Runs I2cChip Si5351a Si5351aPlls Si5351aDriver

/-- The parts of the chip. -/
inductive Si5351aPart where
  | pllA
  | pllB
  | output (k : Fin 8)
deriving DecidableEq, Repr

namespace Si5351aPart

/-- An output as the driver numbers it. -/
def ms (k : Fin 8) : UInt8 := UInt8.ofNat k

/-- The bits of a register that belong to a part. -/
def mask : Si5351aPart → UInt8 → UInt8
  | pllA, r => if r ∈ dividerRegs 26 then 0xFF else 0
  | pllB, r => if r ∈ dividerRegs 34 then 0xFF else 0
  | output k, r =>
      if r ∈ dividerRegs (42 + ms k * 8) ∨ r = 16 + ms k then 0xFF
      else if r = outputEnableControl then 1 <<< ms k
      else 0

/-- What the driver remembers about a part. -/
def records (d : Si5351aDriver) : Si5351aPart → List (Bool × UInt32)
  | pllA => [(d.pllaConfigured, d.pllaFreq)]
  | pllB => [(d.pllbConfigured, d.pllbFreq)]
  | output _ => [(d.pllaConfigured, d.pllaFreq), (d.pllbConfigured, d.pllbFreq)]

/-- A part: its bits of the registers, and what the driver remembers about it. -/
def view (part : Si5351aPart) (d : Si5351aDriver) : (UInt8 → UInt8) × List (Bool × UInt32) :=
  (fun r => d.regs r &&& part.mask r, part.records d)

/-- The calls that are about a part. -/
def concerns : Si5351aPart → Si5351aCall → Bool
  | _, .init _ => true
  | pllA, .setPll pll .. => pll = Si5351a.pllA
  | pllA, .setPllFreq pll _ => pll = Si5351a.pllA
  | pllB, .setPll pll .. => pll = Si5351a.pllB
  | pllB, .setPllFreq pll _ => pll = Si5351a.pllB
  | output _, .setPll .. => true
  | output _, .setPllFreq .. => true
  | output k, .setMs out .. => out = ms k
  | output k, .setMsFreq out .. => out = ms k
  | output k, .enableOutput out _ => out = ms k
  | _, _ => false

/-! ## Bits -/

theorem and_all (v : UInt8) : v &&& 0xFF = v := UInt8.and_neg_one

theorem bits_cleared (v w m : UInt8) : (v &&& ~~~m) &&& m = (w &&& ~~~m) &&& m := by
  have hzero : ∀ x : UInt8, (x &&& ~~~m) &&& m = 0 := by
    intro x
    rw [UInt8.and_assoc, UInt8.and_comm (~~~m) m, UInt8.and_not_self, UInt8.and_zero]
  rw [hzero, hzero]

theorem bits_set (v w m : UInt8) : (v ||| m) &&& m = (w ||| m) &&& m := by
  have hall : ∀ x : UInt8, (x ||| m) &&& m = m := by
    intro x
    refine UInt8.toBitVec_inj.mp (BitVec.eq_of_getLsbD_eq fun i _ => ?_)
    simp only [UInt8.toBitVec_and, UInt8.toBitVec_or, BitVec.getLsbD_and, BitVec.getLsbD_or]
    cases m.toBitVec.getLsbD i <;> simp
  rw [hall, hall]

theorem bits_kept_clearing {v n m : UInt8} (h : n &&& m = 0) : (v &&& ~~~n) &&& m = v &&& m := by
  refine UInt8.toBitVec_inj.mp (BitVec.eq_of_getLsbD_eq fun i hi => ?_)
  have hbit := congrArg (fun x : UInt8 => x.toBitVec.getLsbD i) h
  simp at hbit ⊢
  grind

theorem bits_kept_setting {v n m : UInt8} (h : n &&& m = 0) : (v ||| n) &&& m = v &&& m := by
  refine UInt8.toBitVec_inj.mp (BitVec.eq_of_getLsbD_eq fun i hi => ?_)
  have hbit := congrArg (fun x : UInt8 => x.toBitVec.getLsbD i) h
  simp at hbit ⊢
  grind

/-- The registers and bits of another output. -/
theorem free_ms (part : Si5351aPart) (m : Fin 8) (h : part ≠ output m) :
    (∀ r ∈ dividerRegs (42 + ms m * 8), part.mask r = 0) ∧ part.mask (16 + ms m) = 0 := by
  cases part with
  | pllA => revert m; decide +kernel
  | pllB => revert m; decide +kernel
  | output k =>
      have hall : ∀ k m : Fin 8, k ≠ m → (∀ r ∈ dividerRegs (42 + ms m * 8), (output k).mask r = 0)
          ∧ (output k).mask (16 + ms m) = 0 := by decide +kernel
      exact hall k m fun hkm => h (by rw [hkm])

/-! ## Two states that look alike -/

/-- The states show the same of a part and meet with the same transfers. -/
structure Alike (part : Si5351aPart) (s t : Si5351aDriver) : Prop where
  transfers : s.transfers = t.transfers
  bits : ∀ r, s.regs r &&& part.mask r = t.regs r &&& part.mask r
  records : part.records s = part.records t

variable {part : Si5351aPart} {s t : Si5351aDriver}

theorem view_eq_iff : part.view s = part.view t ↔
    (∀ r, s.regs r &&& part.mask r = t.regs r &&& part.mask r)
      ∧ part.records s = part.records t := by
  rw [view, view, Prod.mk.injEq, funext_iff]

theorem Alike.view_eq (h : Alike part s t) : part.view s = part.view t :=
  view_eq_iff.mpr ⟨h.bits, h.records⟩

theorem Alike.next_eq (h : Alike part s t) : s.next = t.next :=
  congrArg (fun ts => ts.headD Transfer.done) h.transfers

/-- What a transfer leaves alone. -/
theorem records_of_write (part : Si5351aPart) (d : Si5351aDriver) (regs : UInt8 → UInt8)
    (transfers : List Transfer) : part.records { d with regs, transfers } = part.records d := by
  cases part <;> rfl

/-- A message of the same length for the same registers, that agrees on the bits of the part. -/
theorem Alike.write (h : Alike part s t) (reg : UInt8) {v w : UInt8}
    (hvalue : v &&& part.mask reg = w &&& part.mask reg) :
    (s.writeReg reg v).1 = (t.writeReg reg w).1
      ∧ Alike part (s.writeReg reg v).2 (t.writeReg reg w).2 := by
  rw [Si5351aDriver.writeReg, Si5351aDriver.writeReg, i2cWriteDt_eq, i2cWriteDt_eq, h.next_eq, h.transfers]
  refine ⟨rfl, rfl, fun r => ?_, ?_⟩
  · dsimp only
    have hone : ∀ regs : UInt8 → UInt8, ∀ v, deliver behind regs [reg, v] = Registers.write regs reg v :=
      fun _ _ => rfl
    have hbits : Registers.write s.regs reg v r &&& part.mask r
        = Registers.write t.regs reg w r &&& part.mask r := by
      rw [Registers.write, Registers.write]
      split
      · rename_i hr
        rw [hr]
        exact hvalue
      · exact h.bits r
    rw [taken, taken]
    split
    · rw [hone, hone]
      exact hbits
    · cases t.next.took with
      | zero => exact h.bits r
      | succ n =>
          cases n <;> exact hbits
  · rw [records_of_write, records_of_write]
    exact h.records

theorem Alike.send (h : Alike part s t) (buf : List UInt8) :
    (s.i2cWriteDt buf).1 = (t.i2cWriteDt buf).1
      ∧ Alike part (s.i2cWriteDt buf).2 (t.i2cWriteDt buf).2 := by
  rw [i2cWriteDt_eq, i2cWriteDt_eq, h.next_eq, h.transfers]
  refine ⟨rfl, rfl, fun r => ?_, ?_⟩
  · exact deliver_agree (· &&& part.mask r) _ (h.bits r)
  · rw [records_of_write, records_of_write]
    exact h.records

/-- Reading says the same about the part, and otherwise what the transfers say. -/
theorem Alike.read (h : Alike part s t) (reg : UInt8) :
    (s.readReg reg).1 = (t.readReg reg).1
      ∧ ((s.readReg reg).1 = 0 → volatile reg = false →
          (s.readReg reg).2.1 &&& part.mask reg = (t.readReg reg).2.1 &&& part.mask reg)
      ∧ (volatile reg = true → (s.readReg reg).2.1 = (t.readReg reg).2.1)
      ∧ Alike part (s.readReg reg).2.2 (t.readReg reg).2.2 := by
  rw [readReg_eq, readReg_eq, h.next_eq, h.transfers]
  refine ⟨rfl, ?_, ?_, rfl, h.bits, ?_⟩
  · intro hret hvolatile
    dsimp only at hret ⊢
    rw [if_pos ⟨hret, hvolatile⟩, if_pos ⟨hret, hvolatile⟩]
    exact h.bits reg
  · intro hvolatile
    dsimp only
    rw [hvolatile, if_neg (by simp), if_neg (by simp)]
  · rw [show part.records { s with transfers := t.transfers.tail } = part.records s from
      records_of_write part s s.regs _]
    rw [show part.records { t with transfers := t.transfers.tail } = part.records t from
      records_of_write part t t.regs _]
    exact h.records

/-! ## Calls that are about a part -/

theorem Alike.waitReady (h : Alike part s t) (n : Nat) :
    (s.waitReady n).1 = (t.waitReady n).1 ∧ Alike part (s.waitReady n).2 (t.waitReady n).2 := by
  induction n generalizing s t with
  | zero => exact ⟨rfl, h⟩
  | succ n ih =>
      obtain ⟨-, -, hshown, hread⟩ := h.read 0
      rw [Si5351aDriver.waitReady, Si5351aDriver.waitReady]
      dsimp only
      rw [hshown rfl]
      split
      · exact ⟨rfl, hread⟩
      · split
        · exact ih hread
        · exact ⟨rfl, hread⟩

theorem Alike.writeEach (h : Alike part s t) (value : UInt8) (regs : List UInt8) :
    (s.writeEach value regs).1 = (t.writeEach value regs).1
      ∧ Alike part (s.writeEach value regs).2 (t.writeEach value regs).2 := by
  induction regs generalizing s t with
  | nil => exact ⟨rfl, h⟩
  | cons reg regs ih =>
      obtain ⟨hret, hwrite⟩ := h.write reg (show value &&& part.mask reg = _ from rfl)
      rw [Si5351aDriver.writeEach, Si5351aDriver.writeEach]
      dsimp only
      rw [hret]
      split
      · exact ⟨rfl, hwrite⟩
      · exact ih hwrite

/-- The spread spectrum belongs to no part. -/
theorem mask_spreadSpectrum (part : Si5351aPart) : part.mask spreadSpectrumParameters = 0 := by
  cases part with
  | pllA => rfl
  | pllB => rfl
  | output k => revert k; decide +kernel

/-- Nor does the register that resets the PLLs. -/
theorem mask_pllReset (part : Si5351aPart) : part.mask 177 = 0 := by
  cases part with
  | pllA => rfl
  | pllB => rfl
  | output k => revert k; decide +kernel

theorem Alike.enableSpreadSpectrum (h : Alike part s t) (enable : Bool) :
    Alike part (s.enableSpreadSpectrum enable).2 (t.enableSpreadSpectrum enable).2 := by
  obtain ⟨hret, -, -, hread⟩ := h.read spreadSpectrumParameters
  rw [Si5351aDriver.enableSpreadSpectrum, Si5351aDriver.enableSpreadSpectrum]
  dsimp only
  rw [hret]
  split
  · exact hread
  · refine (hread.write spreadSpectrumParameters ?_).2
    rw [mask_spreadSpectrum, UInt8.and_zero, UInt8.and_zero]

theorem Alike.init (h : Alike part s t) (cfg : Si5351aDts) (i2cIsReady : Bool) :
    Alike part (s.init cfg i2cIsReady).2 (t.init cfg i2cIsReady).2 := by
  rw [Si5351aDriver.init, Si5351aDriver.init]
  split
  · exact h
  -- how often it is asked does not matter
  generalize 1000 = n
  obtain ⟨hret₁, h₁⟩ := h.waitReady n
  dsimp only
  rw [hret₁]
  split
  · exact h₁
  obtain ⟨hret₂, h₂⟩ := h₁.write outputEnableControl (show 0xFF &&& part.mask _ = _ from rfl)
  rw [hret₂]
  split
  · exact h₂
  obtain ⟨hret₃, h₃⟩ := h₂.writeEach 0x80 clkRegs
  rw [hret₃]
  split
  · exact h₃
  split
  · exact h₃
  · rename_i load _
    obtain ⟨-, h₄⟩ := h₃.write crystalLoad (show load &&& part.mask _ = _ from rfl)
    have h₅ := h₄.enableSpreadSpectrum false
    refine ⟨?_, ?_, ?_⟩
    · dsimp only
      exact h₅.transfers
    · dsimp only
      exact h₅.bits
    · cases part <;> dsimp only [Si5351aPart.records]

theorem mask_outputEnable (k : Fin 8) : (output k).mask outputEnableControl = 1 <<< ms k := by
  revert k
  decide +kernel

/-- The other bits of the shared register are put back; the own one is the same in both. -/
theorem Alike.enableOutput {k : Fin 8} (h : Alike (output k) s t) (enable : Bool) :
    Alike (output k) (s.enableOutput (ms k) enable).2 (t.enableOutput (ms k) enable).2 := by
  obtain ⟨hret, hvalue, -, hread⟩ := h.read outputEnableControl
  rw [Si5351aDriver.enableOutput, Si5351aDriver.enableOutput]
  split
  · exact h
  dsimp only
  rw [hret]
  split
  · exact hread
  · refine (hread.write outputEnableControl ?_).2
    rw [mask_outputEnable]
    split
    · exact bits_cleared _ _ _
    · exact bits_set _ _ _

section Sets

variable {floor128 : UInt32 → UInt32 → Nat} {pllHz : UInt32 → UInt32 → UInt32 → UInt32 → UInt32}
variable {cfg : Si5351aDts}

theorem Alike.setMs (h : Alike part s t) (out : UInt8) (a b c : UInt32) (pll : UInt8) :
    Alike part (s.setMs floor128 out a b c pll).2 (t.setMs floor128 out a b c pll).2 := by
  by_cases hargs : MsArgs out a b c pll
  · rw [setMs_sends s hargs, setMs_sends t hargs]
    obtain ⟨hret, hsend⟩ := h.send ((42 + out * 8) :: dividerBytes floor128 a b c)
    dsimp only
    rw [hret]
    split
    · exact hsend
    · exact (hsend.write (16 + out) rfl).2
  · rw [setMs_refused s hargs, setMs_refused t hargs]
    exact h

/-- What both remember of a PLL then is the same; what they remember of the other was. -/
theorem Alike.remember (h : Alike part s t) (pll : UInt8) (freq : UInt32) :
    Alike part (s.remember pll freq) (t.remember pll freq) := by
  have hrecords := h.records
  rw [Si5351aDriver.remember, Si5351aDriver.remember]
  split
  · refine ⟨h.transfers, h.bits, ?_⟩
    cases part with
    | pllA => rfl
    | pllB => exact hrecords
    | output k =>
        rw [Si5351aPart.records, Si5351aPart.records, List.cons.injEq] at hrecords
        rw [Si5351aPart.records, Si5351aPart.records, List.cons.injEq]
        exact ⟨rfl, hrecords.2⟩
  · refine ⟨h.transfers, h.bits, ?_⟩
    cases part with
    | pllA => exact hrecords
    | pllB => rfl
    | output k =>
        rw [Si5351aPart.records, Si5351aPart.records, List.cons.injEq] at hrecords
        rw [Si5351aPart.records, Si5351aPart.records, List.cons.injEq]
        exact ⟨hrecords.1, rfl⟩

theorem Alike.setPll (h : Alike part s t) (pll : UInt8) (a b c : UInt32) :
    Alike part (s.setPll floor128 pllHz cfg pll a b c).2
      (t.setPll floor128 pllHz cfg pll a b c).2 := by
  by_cases hargs : PllArgs a b c pll
  · rw [setPll_sends s hargs, setPll_sends t hargs]
    obtain ⟨hret, hsend⟩ := h.send (pllBase pll :: dividerBytes floor128 a b c)
    dsimp only
    rw [hret]
    split
    · exact hsend
    · exact hsend.remember pll _
  · rw [setPll_refused s hargs, setPll_refused t hargs]
    exact h

/-- **A call that is about a part does the same to it wherever it looks the same.** -/
theorem Alike.exec (h : Alike part s t) {call : Si5351aCall} (hown : part.concerns call = true) :
    part.view (s.exec floor128 pllHz cfg call).2 = part.view (t.exec floor128 pllHz cfg call).2 := by
  refine Alike.view_eq ?_
  cases call with
  | init i2cIsReady => exact h.init cfg i2cIsReady
  | setPll pll a b c => exact h.setPll pll a b c
  | setPllFreq pll freq =>
      rw [Si5351aDriver.exec, Si5351aDriver.exec]
      rcases @setPllFreq_sets floor128 pllHz cfg pll freq with href | ⟨a, b, c, hsets⟩
      · rw [href, href]
        exact h
      · rw [hsets, hsets]
        exact h.setPll pll a b c
  | setMs out a b c pll => exact h.setMs out a b c pll
  | setMsFreq out freqHz freqMillihz pll =>
      cases part with
      | pllA => cases hown
      | pllB => cases hown
      | output k =>
          have hrecords := h.records
          rw [Si5351aPart.records, Si5351aPart.records, List.cons.injEq, List.cons.injEq] at hrecords
          obtain ⟨ha, hb, -⟩ := hrecords
          rw [Si5351aDriver.exec, Si5351aDriver.exec]
          rcases @setMsFreq_sets floor128 out freqHz freqMillihz pll t.pllaFreq t.pllbFreq with
            href | ⟨a, b, hsets⟩
          · rw [href s (congrArg Prod.snd ha) (congrArg Prod.snd hb), href t rfl rfl]
            exact h
          · rw [hsets s (congrArg Prod.snd ha) (congrArg Prod.snd hb), hsets t rfl rfl]
            exact h.setMs out a b _ pll
  | enableOutput out enable =>
      cases part with
      | pllA => cases hown
      | pllB => cases hown
      | output k =>
          rw [of_decide_eq_true hown]
          exact h.enableOutput enable
  | resetPll resetA resetB => cases part <;> cases hown
  | enableSpreadSpectrum enable => cases part <;> cases hown
  | updateStatus => cases part <;> cases hown

end Sets

/-! ## Calls that are about something else -/

theorem records_send (part : Si5351aPart) (d : Si5351aDriver) (buf : List UInt8) :
    part.records (d.i2cWriteDt buf).2 = part.records d := by
  rw [i2cWriteDt_eq]
  exact records_of_write part d _ _

/-- A message for registers of which nothing belongs to the part. -/
theorem view_send (part : Si5351aPart) (d : Si5351aDriver) {reg : UInt8} {values : List UInt8}
    (hfree : ∀ r ∈ span behind reg values.length, part.mask r = 0) :
    part.view (d.i2cWriteDt (reg :: values)).2 = part.view d := by
  refine view_eq_iff.mpr ⟨fun r => ?_, records_send part d _⟩
  by_cases hr : r ∈ span behind reg values.length
  · rw [hfree r hr, UInt8.and_zero, UInt8.and_zero]
  · rw [regs_send d hr]

/-- What a register holds after it was written, or not. -/
theorem regs_written (d : Si5351aDriver) (reg value : UInt8) :
    (d.writeReg reg value).2.regs reg = value ∨ (d.writeReg reg value).2.regs reg = d.regs reg :=
  writeDt_one d.toI2cChip reg value

/-- A register written with the bits of the part that it has. -/
theorem view_write (part : Si5351aPart) (d : Si5351aDriver) {reg value : UInt8}
    (hsame : value &&& part.mask reg = d.regs reg &&& part.mask reg) :
    part.view (d.writeReg reg value).2 = part.view d := by
  refine view_eq_iff.mpr ⟨fun r => ?_, records_send part d _⟩
  by_cases hr : r = reg
  · subst hr
    rcases regs_written d r value with hnew | hold
    · rw [hnew, hsame]
    · rw [hold]
  · rw [regs_write d value hr]

theorem view_read (part : Si5351aPart) (d : Si5351aDriver) (reg : UInt8) :
    part.view (d.readReg reg).2.2 = part.view d := by
  rw [readReg_eq, view_eq_iff]
  exact ⟨fun _ => rfl, records_of_write part d d.regs _⟩

/-- Reading a register that is not the chip's own shows it. -/
theorem read_value (d : Si5351aDriver) {reg : UInt8} (hvolatile : volatile reg = false)
    (hret : (d.readReg reg).1 = 0) :
    (d.readReg reg).2.1 = (d.readReg reg).2.2.regs reg := by
  rw [readReg_eq] at hret ⊢
  exact if_pos ⟨hret, hvolatile⟩

theorem view_enableSpreadSpectrum (part : Si5351aPart) (d : Si5351aDriver) (enable : Bool) :
    part.view (d.enableSpreadSpectrum enable).2 = part.view d := by
  have hread := view_read part d spreadSpectrumParameters
  rw [Si5351aDriver.enableSpreadSpectrum]
  dsimp only
  split
  · exact hread
  · refine (view_write part _ ?_).trans hread
    rw [mask_spreadSpectrum, UInt8.and_zero, UInt8.and_zero]

theorem view_updateStatus (part : Si5351aPart) (d : Si5351aDriver) :
    part.view d.updateStatus.2 = part.view d := by
  have hsys : part.view d.updateSysStatus.2 = part.view d := by
    rw [updateSysStatus]
    dsimp only
    split
    · exact view_read part d 0
    · refine Eq.trans ?_ (view_read part d 0)
      cases part <;> rfl
  have hint : ∀ d : Si5351aDriver, part.view d.updateIntStatus.2 = part.view d := by
    intro d
    rw [updateIntStatus]
    dsimp only
    split
    · exact view_read part d 1
    · refine Eq.trans ?_ (view_read part d 1)
      cases part <;> rfl
  rw [updateStatus]
  dsimp only
  split
  · exact hsys
  · exact (hint _).trans hsys

/-- Outputs as numbers and as the driver's bytes. -/
theorem exists_ms {out : UInt8} (h : ¬ out > 7) : ∃ m : Fin 8, out = ms m := by
  have hle : out.toNat ≤ 7 := UInt8.not_lt.mp h
  refine ⟨⟨out.toNat, by omega⟩, ?_⟩
  rw [ms, UInt8.ofNat_toNat]

theorem view_enableOutput (part : Si5351aPart) (d : Si5351aDriver) {out : UInt8} (enable : Bool)
    (hother : part.concerns (.enableOutput out enable) = false) :
    part.view (d.enableOutput out enable).2 = part.view d := by
  rw [Si5351aDriver.enableOutput]
  split
  · rfl
  next hout =>
    obtain ⟨m, rfl⟩ := exists_ms hout
    have hread := view_read part d outputEnableControl
    dsimp only
    split
    · exact hread
    next hret =>
      refine (view_write part _ ?_).trans hread
      rw [← read_value d rfl (Decidable.not_not.mp hret)]
      -- the bit of the other output is not one of the part's
      have hfree : 1 <<< ms m &&& part.mask outputEnableControl = 0 := by
        cases part with
        | pllA => exact UInt8.and_zero
        | pllB => exact UInt8.and_zero
        | output k =>
            have hall : ∀ k m : Fin 8, ms m ≠ ms k →
                1 <<< ms m &&& (output k).mask outputEnableControl = 0 := by decide +kernel
            exact hall k m (of_decide_eq_false hother)
      split
      · exact bits_kept_clearing hfree
      · exact bits_kept_setting hfree

section Sets

variable {floor128 : UInt32 → UInt32 → Nat} {pllHz : UInt32 → UInt32 → UInt32 → UInt32 → UInt32}
variable {cfg : Si5351aDts}

theorem view_setMs (part : Si5351aPart) (d : Si5351aDriver) {out : UInt8} (a b c : UInt32)
    (pll : UInt8) (hother : ∀ m : Fin 8, out = ms m → part ≠ output m) :
    part.view (d.setMs floor128 out a b c pll).2 = part.view d := by
  by_cases hargs : MsArgs out a b c pll
  · obtain ⟨m, rfl⟩ := exists_ms hargs.output
    obtain ⟨hdivider, hcontrol⟩ := free_ms part m (hother m rfl)
    have hsend := @view_send part d _ (dividerBytes floor128 a b c) hdivider
    rw [setMs_sends d hargs]
    dsimp only
    split
    · exact hsend
    · refine (view_write part _ ?_).trans hsend
      rw [hcontrol, UInt8.and_zero, UInt8.and_zero]
  · rw [setMs_refused d hargs]

/-- The PLL that is set is another one. -/
theorem view_setPll (part : Si5351aPart) (d : Si5351aDriver) {pll : UInt8} (a b c : UInt32)
    (hother : part.concerns (.setPll pll a b c) = false) :
    part.view (d.setPll floor128 pllHz cfg pll a b c).2 = part.view d := by
  by_cases hargs : PllArgs a b c pll
  · have hfree : (∀ r ∈ span behind (pllBase pll) 8, part.mask r = 0)
        ∧ ∀ d : Si5351aDriver, ∀ freq, part.view (d.remember pll freq) = part.view d := by
      cases part with
      | pllA =>
          have hB : pll = Si5351a.pllB :=
            Decidable.not_not.mp fun hB => hargs.knownPll ⟨of_decide_eq_false hother, hB⟩
          subst hB
          exact ⟨by decide +kernel, fun _ _ => rfl⟩
      | pllB =>
          have hA : pll = Si5351a.pllA :=
            Decidable.not_not.mp fun hA => hargs.knownPll ⟨hA, of_decide_eq_false hother⟩
          subst hA
          exact ⟨by decide +kernel, fun _ _ => rfl⟩
      | output k => cases hother
    have hsend := @view_send part d _ (dividerBytes floor128 a b c) hfree.1
    rw [setPll_sends d hargs]
    dsimp only
    split
    · exact hsend
    · exact (hfree.2 _ _).trans hsend
  · rw [setPll_refused d hargs]

/-- **A call that is not about a part leaves it alone.** -/
theorem view_exec (part : Si5351aPart) (d : Si5351aDriver) {call : Si5351aCall}
    (hother : part.concerns call = false) :
    part.view (d.exec floor128 pllHz cfg call).2 = part.view d := by
  cases call with
  | init i2cIsReady => cases part <;> cases hother
  | setPll pll a b c => exact view_setPll part d a b c hother
  | setPllFreq pll freq =>
      rw [Si5351aDriver.exec]
      rcases @setPllFreq_sets floor128 pllHz cfg pll freq with href | ⟨a, b, c, hsets⟩
      · rw [href]
      · rw [hsets]
        refine view_setPll part d a b c ?_
        cases part <;> exact hother
  | setMs out a b c pll =>
      refine view_setMs part d a b c pll fun m hm hpart => ?_
      rw [hpart] at hother
      exact of_decide_eq_false hother hm
  | setMsFreq out freqHz freqMillihz pll =>
      rw [Si5351aDriver.exec]
      rcases @setMsFreq_sets floor128 out freqHz freqMillihz pll d.pllaFreq d.pllbFreq with
        href | ⟨a, b, hsets⟩
      · rw [href d rfl rfl]
      · rw [hsets d rfl rfl]
        refine view_setMs part d a b _ pll fun m hm hpart => ?_
        rw [hpart] at hother
        exact of_decide_eq_false hother hm
  | resetPll resetA resetB =>
      refine view_write part d ?_
      rw [mask_pllReset, UInt8.and_zero, UInt8.and_zero]
  | enableOutput out enable => exact view_enableOutput part d enable hother
  | enableSpreadSpectrum enable => exact view_enableSpreadSpectrum part d enable
  | updateStatus => exact view_updateStatus part d

end Sets

/-! ## Over whole runs -/

section Runs

variable (floor128 : UInt32 → UInt32 → Nat) (pllHz : UInt32 → UInt32 → UInt32 → UInt32 → UInt32)
  (cfg : Si5351aDts)

/-- What a part shows does not say which transfers are to come. -/
theorem view_transfers (part : Si5351aPart) (d : Si5351aDriver) (transfers : List Transfer) :
    part.view { d with transfers } = part.view d :=
  view_eq_iff.mpr ⟨fun _ => rfl, records_of_write part d d.regs transfers⟩

theorem view_step_other (part : Si5351aPart) (d : Si5351aDriver) (e : Si5351aCall × List Transfer)
    (hother : part.concerns e.1 = false) :
    part.view (d.step floor128 pllHz cfg e) = part.view d :=
  (view_exec part _ hother).trans (view_transfers part d e.2)

/--
**The parts do not get in each other's way.**

In every run of calls, whatever the transfers come to, a PLL or an output ends up as in
the run of the calls that are about it: its registers, its bit of the shared register,
and what the driver remembers.
-/
theorem parts_apart (part : Si5351aPart) (d : Si5351aDriver)
    (es : List (Si5351aCall × List Transfer)) :
    part.view (run (step floor128 pllHz cfg) d es)
      = part.view (run (step floor128 pllHz cfg) d (es.filter fun e => part.concerns e.1)) := by
  refine view_filter (fun s t e hown h => ?_) (view_step_other floor128 pllHz cfg part) rfl es
  obtain ⟨hbits, hrecords⟩ := view_eq_iff.mp h
  have halike : Alike part { s with transfers := e.2 } { t with transfers := e.2 } := by
    refine ⟨rfl, hbits, ?_⟩
    rw [records_of_write part s s.regs e.2, records_of_write part t t.regs e.2]
    exact hrecords
  exact halike.exec hown

end Runs

end Si5351aPart

end MiniHF
