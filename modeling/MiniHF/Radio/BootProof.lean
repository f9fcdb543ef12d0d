import MiniHF.Radio.Boot
import MiniHF.Radio.QuietProof
import MiniHF.Radio.ReplyProof

/-!
# What `main` leaves to its loop

`main` gets to its loop exactly where the clock generator comes up in time, its crystal
allows 600 MHz, the six transfers of its setup go through, and clock and relays are
there. Then the device is the one every command starts from, with an output of 500 kHz
that nobody has asked for, and the rounds of the loop change nothing but what is said.
-/

namespace MiniHF

open Registers Runs

/-! ## Calls that go through -/

namespace I2cChip

/-- The next transfers go through. -/
def Sends (n : Nat) (chip : I2cChip) : Prop := ∀ t ∈ chip.transfers.take n, t.ret = 0

theorem sends_succ {n : Nat} {chip : I2cChip} :
    chip.Sends (n + 1) ↔ chip.next.ret = 0 ∧ Sends n { chip with transfers := chip.transfers.tail } := by
  obtain ⟨regs, transfers⟩ := chip
  cases transfers with
  | nil =>
      have hnone : ∀ n, ∀ t ∈ ([] : List Transfer).take n, t.ret = 0 := fun n t ht => by
        rw [List.take_nil] at ht
        cases ht
      exact iff_of_true (hnone (n + 1)) ⟨rfl, hnone n⟩
  | cons t transfers => exact List.forall_mem_cons

theorem sends_zero (chip : I2cChip) : chip.Sends 0 := fun _ ht => by cases ht

theorem sends_one {chip : I2cChip} : chip.Sends 1 ↔ chip.next.ret = 0 :=
  sends_succ.trans (and_iff_left (sends_zero _))

end I2cChip

namespace Si5351aDriver

open I2cChip Si5351a Si5351aPlls Si5351aPart

/-- The call succeeds where the condition holds and its transfers go through, and then it has used
them up. -/
structure Needs (n : Nat) (condition : Prop) (d : Si5351aDriver) (out : Int × Si5351aDriver) :
    Prop where
  nonpos : out.1 ≤ 0
  success : out.1 = 0 ↔ condition ∧ d.Sends n
  used : out.1 = 0 → out.2.transfers = d.transfers.drop n

theorem needs_refused {n : Nat} {condition : Prop} {d : Si5351aDriver} (h : ¬ condition) :
    Needs n condition d (-22, d) := by
  have hrefused : ¬ (-22 : Int) = 0 := by decide
  have hneg : (-22 : Int) ≤ 0 := by decide
  exact ⟨hneg, iff_of_false hrefused fun hc => h hc.1, fun h0 => absurd h0 hrefused⟩

theorem needs_write (d : Si5351aDriver) (buf : List UInt8) :
    Needs 1 True d (d.i2cWriteDt buf) := by
  rw [i2cWriteDt_eq]
  refine ⟨d.next.nonpos, ?_, fun _ => (List.drop_one).symm⟩
  exact (@sends_one d.toI2cChip).symm.trans (and_iff_right trivial).symm

theorem needs_read (d : Si5351aDriver) (reg : UInt8) :
    Needs 1 True d ((d.readReg reg).1, (d.readReg reg).2.2) := by
  rw [readReg_eq]
  refine ⟨d.next.nonpos, ?_, fun _ => (List.drop_one).symm⟩
  exact (@sends_one d.toI2cChip).symm.trans (and_iff_right trivial).symm

/-- The next transfers and those after them. -/
theorem sends_add {m n : Nat} {d d' : Si5351aDriver} (h : d'.transfers = d.transfers.drop m) :
    d.Sends (m + n) ↔ d.Sends m ∧ d'.Sends n := by
  unfold Sends
  rw [h, List.take_add]
  constructor
  · intro hall
    exact ⟨fun t ht => hall t (List.mem_append_left _ ht),
      fun t ht => hall t (List.mem_append_right _ ht)⟩
  · rintro ⟨hfirst, hthen⟩ t ht
    exact (List.mem_append.mp ht).elim (hfirst t) (hthen t)

/-- What follows a call that has succeeded. -/
def following (out : Int × Si5351aDriver) (next : Si5351aDriver → Int × Si5351aDriver) :
    Int × Si5351aDriver :=
  if out.1 ≠ 0 then out else next out.2

theorem following_success {out : Int × Si5351aDriver} {next : Si5351aDriver → Int × Si5351aDriver}
    (h : (following out next).1 = 0) : out.1 = 0 ∧ following out next = next out.2 := by
  unfold following at h ⊢
  split at h
  · next hfail => exact absurd h hfail
  · next hsent => exact ⟨not_not.mp hsent, if_neg hsent⟩

/-- One call after another. -/
theorem Needs.andThen {m n : Nat} {p q : Prop} {d : Si5351aDriver} {out : Int × Si5351aDriver}
    (h : Needs m p d out) (next : Si5351aDriver → Int × Si5351aDriver)
    (hnext : out.1 = 0 → Needs n q out.2 (next out.2)) :
    Needs (m + n) (p ∧ q) d (following out next) := by
  unfold following
  by_cases hout : out.1 = 0
  · rw [if_neg (not_not.mpr hout)]
    have hthen := hnext hout
    obtain ⟨hp, hsent⟩ := h.success.mp hout
    have hused := h.used hout
    refine ⟨hthen.nonpos, ?_, fun h0 => ?_⟩
    · rw [hthen.success, sends_add hused]
      exact ⟨fun hq => ⟨⟨hp, hq.1⟩, hsent, hq.2⟩, fun hq => ⟨hq.1.2, hq.2.2⟩⟩
    · rw [hthen.used h0, hused, List.drop_drop]
  · rw [if_pos hout]
    refine ⟨h.nonpos, iff_of_false hout fun hall => hout (h.success.mpr ⟨hall.1.1, ?_⟩),
      fun h0 => absurd h0 hout⟩
    exact fun t ht => hall.2 t (List.take_subset_take_left _ (Nat.le_add_right m n) ht)

section Calls

variable {floor128 : UInt32 → UInt32 → Nat} {pllHz : UInt32 → UInt32 → UInt32 → UInt32 → UInt32}
variable {cfg : Si5351aDts}

/-- The crystal goes into a frequency as often as a PLL can multiply it. -/
def Multiplies (cfg : Si5351aDts) (freq : UInt32) : Prop :=
  15 ≤ freq.toNat / cfg.xtalFreq.toNat ∧ freq.toNat / cfg.xtalFreq.toNat ≤ 90

theorem needs_setPllFreq (hxtal : 0 < cfg.xtalFreq.toNat) (d : Si5351aDriver) {pll : UInt8}
    (hpll : pll = Si5351a.pllA ∨ pll = Si5351a.pllB) {freq : UInt32} (hvco : InVco freq) :
    Needs 1 (Multiplies cfg freq) d (d.setPllFreq floor128 pllHz cfg pll freq) := by
  obtain ⟨a, b, c, heq, hmul⟩ := setPllFreq_eq floor128 pllHz d.bus hxtal pll hvco
  rw [show d.setPllFreq floor128 pllHz cfg pll freq = d.setPll floor128 pllHz cfg pll a b c from
    carryOut_congr heq]
  by_cases hwhole : freq.toNat / cfg.xtalFreq.toNat < 15 ∨ 90 < freq.toNat / cfg.xtalFreq.toNat
  · have hargs : ¬ PllArgs a b c pll := by
      intro h
      have hrange := h.whole
      rw [pll_whole_range, hmul.whole] at hrange
      exact hrange hwhole
    rw [setPll_refused d hargs]
    exact needs_refused fun h => by
      have hlow := h.1
      have hhigh := h.2
      omega
  · have hfits : Multiplies cfg freq := ⟨by omega, by omega⟩
    rw [setPll_sends d (hmul.args hpll hwhole).1]
    dsimp only
    have hwrite := needs_write d (pllBase pll :: dividerBytes floor128 a b c)
    have hzero : (0 : Int) ≤ 0 := Int.le_refl 0
    split
    · next hfail =>
        exact ⟨hwrite.nonpos, iff_of_false hfail fun h => hfail (hwrite.success.mpr ⟨trivial, h.2⟩),
          fun h0 => absurd h0 hfail⟩
    · next hsent =>
        have hok := not_not.mp hsent
        refine ⟨hzero, iff_of_true rfl ⟨hfits, (hwrite.success.mp hok).2⟩, fun _ => ?_⟩
        rw [remember]
        split <;> exact hwrite.used hok

/-- The PLL runs, and its frequency can be divided down to the one asked for. -/
structure Divides (d : Si5351aDriver) (pll : UInt8) (freqHz freqMillihz : UInt32) : Prop where
  thousandths : ¬ freqMillihz ≥ 1000
  asked : target freqHz freqMillihz ≠ 0
  low : 6 * target freqHz freqMillihz ≤ 1000 * (d.remembered pll).toNat
  high : 1000 * (d.remembered pll).toNat < 1801 * target freqHz freqMillihz

theorem ms_known (k : Fin 8) : ¬ ms k > 7 := by
  have hall : ∀ k : Fin 8, ¬ ms k > 7 := by decide +kernel
  exact hall k

theorem needs_setMsFreq (d : Si5351aDriver) (k : Fin 8) {pll : UInt8}
    (hpll : pll = Si5351a.pllA ∨ pll = Si5351a.pllB) {freqHz freqMillihz : UInt32}
    (h : Divides d pll freqHz freqMillihz) :
    Needs 2 True d (d.setMsFreq floor128 (ms k) freqHz freqMillihz pll) := by
  have hpos : 0 < target freqHz freqMillihz := Nat.pos_of_ne_zero h.asked
  have hsource : d.bus.toSi5351a.source pll = 1000 * (d.remembered pll).toNat := rfl
  have hlow := h.low
  have hhigh := h.high
  have hout := ms_known k
  have hknown : ¬ (pll ≠ Si5351a.pllA ∧ pll ≠ Si5351a.pllB) := fun hne => hpll.elim hne.1 hne.2
  have hlocked : d.bus.toSi5351a.pllFreq pll ≠ 0 := by
    intro h0
    have hzero : (d.remembered pll).toNat = 0 := congrArg UInt32.toNat h0
    omega
  obtain ⟨a, b, heq, ha, hb, hlt⟩ :=
    setMsFreq_eq floor128 (d := d.bus.toSi5351a) ⟨hout, hknown, h.thousandths, hlocked, h.asked⟩
  have hsix : 6 ≤ d.bus.toSi5351a.source pll / target freqHz freqMillihz := by
    rw [hsource, Nat.le_div_iff_mul_le hpos]
    exact hlow
  have htop : d.bus.toSi5351a.source pll / target freqHz freqMillihz < 1801 := by
    rw [hsource, Nat.div_lt_iff_lt_mul hpos]
    exact hhigh
  rw [Nat.mod_eq_of_lt (by omega)] at ha
  have hargs : MsArgs (ms k) a b rfracDenom.toUInt32 pll := by
    refine ⟨hout, ?_, ?_, by decide, hknown⟩
    · rw [whole_range]
      omega
    · have hmax : (1048574 : UInt32).toNat = 1048574 := rfl
      rw [gt_iff_lt, UInt32.lt_iff_toNat_lt, hmax]
      omega
  have hsets : d.setMsFreq floor128 (ms k) freqHz freqMillihz pll
      = d.setMs floor128 (ms k) a b rfracDenom.toUInt32 pll := by
    refine carryOut_congr ?_
    rw [heq]
  rw [hsets, setMs_sends d hargs]
  have hboth := (needs_write d ((42 + ms k * 8) :: dividerBytes floor128 a b rfracDenom.toUInt32)).andThen
    (fun d => d.writeReg (16 + ms k) (clkCtrl b pll)) fun _ => needs_write _ _
  exact ⟨hboth.nonpos, hboth.success.trans (by rw [and_self_iff]), hboth.used⟩

theorem needs_enableOutput (d : Si5351aDriver) (k : Fin 8) (enable : Bool) :
    Needs 2 True d (d.enableOutput (ms k) enable) := by
  have hout := ms_known k
  have hboth := (needs_read d outputEnableControl).andThen
    (fun d' => d'.writeReg outputEnableControl
      (if enable then (d.readReg outputEnableControl).2.1 &&& ~~~(1 <<< ms k)
        else (d.readReg outputEnableControl).2.1 ||| (1 <<< ms k))) fun _ => needs_write _ _
  rw [enableOutput, if_neg hout]
  exact ⟨hboth.nonpos, hboth.success.trans (by rw [and_self_iff]), hboth.used⟩

/-! ## The setup of the clock generator -/

variable (floor128 pllHz cfg) in
/-- The calls of `init_si5351a`. -/
def setUp (d : Si5351aDriver) : Int × Si5351aDriver :=
  following (d.setPllFreq floor128 pllHz cfg Si5351a.pllA 600000000) fun d =>
    following (d.setMsFreq floor128 (ms 0) 500000 0 Si5351a.pllA) fun d =>
      following (d.resetPll true true) fun d => d.enableOutput (ms 0) true

theorem inVco_boot : InVco 600000000 := ⟨Nat.le_refl _, by decide⟩

/-- A PLL that runs can be divided down to 500 kHz. -/
theorem PllAt.divides {xtal : Nat} {pll : UInt8} {d : Si5351aDriver} {p : DividerParams}
    (h : PllAt xtal pll d p) : Divides d pll 500000 0 := by
  have hlow : 599999940 ≤ (d.remembered pll).toNat + 2 := by
    exact_mod_cast h.fast.trans h.above.le
  have hhigh : (d.remembered pll).toNat ≤ 900000000 := by
    exact_mod_cast h.below.trans h.slow
  have htarget : target 500000 0 = 500000000 := rfl
  exact ⟨by decide, by decide, by omega, by omega⟩

/-- **The setup succeeds where the crystal allows it and six transfers go through.** -/
theorem needs_setUp (hfloor : Exact128 floor128) (hhz : RoundedHz pllHz)
    (hxtal : 0 < cfg.xtalFreq.toNat) (d : Si5351aDriver) :
    Needs 6 (Multiplies cfg 600000000) d (d.setUp floor128 pllHz cfg) := by
  have hA : Si5351a.pllA = Si5351a.pllA ∨ Si5351a.pllA = Si5351a.pllB := Or.inl rfl
  have hlast : ∀ d : Si5351aDriver, Needs (1 + 2) (True ∧ True) d
      (following (d.resetPll true true) fun d => d.enableOutput (ms 0) true) :=
    fun d => (needs_write d _).andThen _ fun _ => needs_enableOutput _ 0 true
  have hset : Needs 1 (Multiplies cfg 600000000) d
      (d.setPllFreq floor128 pllHz cfg Si5351a.pllA 600000000) :=
    needs_setPllFreq hxtal d hA inVco_boot
  have hall := hset.andThen
    (fun d => following (d.setMsFreq floor128 (ms 0) 500000 0 Si5351a.pllA) fun d =>
      following (d.resetPll true true) fun d => d.enableOutput (ms 0) true) fun hret => by
    obtain ⟨p, hp⟩ := setPllFreq_locks hfloor hhz hxtal d hA hret
    exact (@needs_setMsFreq floor128 _ 0 _ hA _ _ hp.divides).andThen _ fun _ => hlast _
  rw [and_self_iff, and_self_iff, and_true] at hall
  exact hall

theorem enableOutput_enables (d : Si5351aDriver) {k : Fin 8}
    (hret : (d.enableOutput (ms k) true).1 = 0) :
    (d.enableOutput (ms k) true).2.regs outputEnableControl
      = d.regs outputEnableControl &&& ~~~(1 <<< ms k) := by
  have hout := ms_known k
  rw [enableOutput, if_neg hout, readReg_eq] at hret ⊢
  dsimp only at hret ⊢
  split at hret
  · next hfail => exact absurd hret hfail
  next hread =>
  rw [if_neg hread]
  have hvalue : (if d.next.ret = 0 ∧ volatile outputEnableControl = false
      then d.regs outputEnableControl else d.next.shown) = d.regs outputEnableControl :=
    if_pos ⟨not_not.mp hread, rfl⟩
  rw [hvalue, if_pos rfl] at hret ⊢
  exact write_sent _ hret

/-- **What the setup leaves**: output 0 at 500 kHz, and the others as they were. -/
theorem setUp_leaves (hfloor : Exact128 floor128) (hhz : RoundedHz pllHz)
    (hxtal : 0 < cfg.xtalFreq.toNat) {d : Si5351aDriver} (hquiet : Quiet d)
    (hret : (d.setUp floor128 pllHz cfg).1 = 0) :
    (d.setUp floor128 pllHz cfg).2.regs outputEnableControl = 0xFE
      ∧ (∃ f, outputHz cfg.xtalFreq.toNat (d.setUp floor128 pllHz cfg).2.regs 0 = some f
        ∧ 500000 ≤ f ∧ f < 500000 * (1 + 1 / 5000000))
      ∧ ∀ k : Fin 8, k ≠ 0 → Down k (d.setUp floor128 pllHz cfg).2 := by
  have hA : Si5351a.pllA = Si5351a.pllA ∨ Si5351a.pllA = Si5351a.pllB := Or.inl rfl
  unfold setUp at hret ⊢
  obtain ⟨hret₁, h₁⟩ := following_success hret
  rw [h₁] at hret ⊢
  obtain ⟨hret₂, h₂⟩ := following_success hret
  rw [h₂] at hret ⊢
  obtain ⟨hret₃, h₃⟩ := following_success hret
  rw [h₃] at hret ⊢
  -- PLL A is set up, and what follows leaves it alone
  obtain ⟨p, hp₁⟩ := setPllFreq_locks hfloor hhz hxtal d hA hret₁
  have hregs₁ := @regs_exec floor128 pllHz cfg d (.setPllFreq Si5351a.pllA 600000000)
  dsimp only [exec] at hregs₁
  generalize (d.setPllFreq floor128 pllHz cfg Si5351a.pllA 600000000).2 = d₁ at *
  -- then the divider of output 0 is
  obtain ⟨q, hq₂⟩ := @setMsFreq_programs floor128 hfloor d₁ 0 500000 0 Si5351a.pllA (by decide) hret₂
  have hregs₂ := @regs_exec floor128 pllHz cfg d₁ (.setMsFreq (ms 0) 500000 0 Si5351a.pllA)
  have hview₂ := @view_exec floor128 pllHz cfg .pllA d₁ (.setMsFreq (ms 0) 500000 0 Si5351a.pllA) rfl
  dsimp only [exec] at hregs₂ hview₂
  have hp₂ := hp₁.of_view hview₂
  generalize (d₁.setMsFreq floor128 (ms 0) 500000 0 Si5351a.pllA).2 = d₂ at *
  have hregs₃ := @regs_exec floor128 pllHz cfg d₂ (.resetPll true true)
  have hview₃ := @view_exec floor128 pllHz cfg .pllA d₂ (.resetPll true true) rfl
  dsimp only [exec] at hregs₃ hview₃
  have hp₃ := hp₂.of_view hview₃
  generalize (d₂.resetPll true true).2 = d₃ at *
  -- every output was disabled, and now output 0 is not
  have hcontrol := enableOutput_enables d₃ hret
  have hregs₄ := @regs_exec floor128 pllHz cfg d₃ (.enableOutput (ms 0) true)
  have hview₄ := @view_exec floor128 pllHz cfg .pllA d₃ (.enableOutput (ms 0) true) rfl
  dsimp only [exec] at hregs₄ hview₄
  have hp₄ := hp₃.of_view hview₄
  generalize (d₃.enableOutput (ms 0) true).2 = d₄ at *
  refine ⟨?_, ?_, fun k hk => ?_⟩
  · rw [hcontrol, hregs₃ (by decide), hregs₂ (by decide +kernel), hregs₁ (by decide +kernel),
      hquiet.disabled]
    decide
  · have hq₄ : OutputAt 0 Si5351a.pllA (target 500000 0) _ d₄.regs q := hq₂.of_regs fun r hr => by
      rw [hregs₄ (untuned_apart rfl hr), hregs₃ (untuned_apart rfl hr)]
    obtain ⟨hlow, hhigh⟩ := frequency_bounds hp₁.below hp₁.above hp₁.fast hq₄.six hq₄.low hq₄.high
    have htarget : ((target 500000 0 : Nat) : Rat) = 500000000 := by
      rw [show target 500000 0 = 500000000 from rfl]
      norm_num
    rw [htarget] at hlow hhigh
    refine ⟨_, outputHz_eq hA hp₄ hq₄, ?_, ?_⟩
    · linarith
    · linarith
  · have hapart : ∀ k : Fin 8, k ≠ 0 → 16 + ms k ∉ dividerRegs (pllBase Si5351a.pllA)
        ∧ 16 + ms k ∉ (16 + ms 0) :: dividerRegs (42 + ms 0 * 8) ∧ 16 + ms k ∉ [(177 : UInt8)]
        ∧ 16 + ms k ∉ [outputEnableControl] := by decide +kernel
    obtain ⟨hpll, hms, hreset, henable⟩ := hapart k hk
    rw [Down, hregs₄ henable, hregs₃ hreset, hregs₂ hms, hregs₁ hpll]
    exact hquiet.down k

end Calls

end Si5351aDriver

/-! ## The rig -/

namespace Rig

open Si5351aDriver Device
open Si5351a (Exact128)
open Si5351aPlls

/-- Only what was said tells the two apart, and whether there is a display. -/
def Talk (m m' : Rig) : Prop :=
  ∃ out oledInitialized, m' = { m with device := { m.device with out }, oledInitialized }

theorem Talk.refl (m : Rig) : Talk m m := ⟨m.device.out, m.oledInitialized, rfl⟩

theorem Talk.trans {m m' m'' : Rig} (h : Talk m m') (h' : Talk m' m'') : Talk m m'' := by
  obtain ⟨out, oled, rfl⟩ := h
  obtain ⟨out', oled', rfl⟩ := h'
  exact ⟨out', oled', rfl⟩

theorem talk_debugPrintf (text : String) (m : Rig) : Talk m (m.debugPrintf text) := by
  rw [debugPrintf, sendDebugMessage_eq]
  exact ⟨_, m.oledInitialized, rfl⟩

theorem Talk.debugPrintf {m m' : Rig} (h : Talk m m') (text : String) :
    Talk m (m'.debugPrintf text) := h.trans (talk_debugPrintf text m')

/-- The device shows up in time. -/
def readyWithin (count : Nat) (ready : Nat → Bool) : Bool := (List.range (count + 1)).any ready

theorem awaitReady_now {ready : Nat → Bool} {tries : Nat} (h : ready tries = true)
    (waiting : Nat → String) (notReady : String) (left : Nat) (m : Rig) :
    m.awaitReady ready waiting notReady tries left = (true, m) := by
  cases left with
  | zero => rw [awaitReady, if_pos h]
  | succ left => rw [awaitReady, if_pos h]

/-- **A loop that waits** gets its device exactly if it shows up in time. -/
theorem awaitReady_spec (ready : Nat → Bool) (waiting : Nat → String) (notReady : String)
    (left tries : Nat) (m : Rig) :
    ((m.awaitReady ready waiting notReady tries left).1 = true
        ↔ ∃ i, tries ≤ i ∧ i ≤ tries + left ∧ ready i = true)
      ∧ Talk m (m.awaitReady ready waiting notReady tries left).2 := by
  induction left generalizing tries m with
  | zero =>
      by_cases hready : ready tries = true
      · rw [awaitReady_now hready]
        exact ⟨iff_of_true rfl ⟨tries, Nat.le_refl _, Nat.le_refl _, hready⟩, Talk.refl m⟩
      · rw [awaitReady, if_neg hready]
        refine ⟨iff_of_false Bool.false_ne_true ?_, (talk_debugPrintf _ m).debugPrintf _⟩
        rintro ⟨i, hlow, hhigh, hi⟩
        obtain rfl : i = tries := by omega
        exact hready hi
  | succ left ih =>
      by_cases hready : ready tries = true
      · rw [awaitReady_now hready]
        exact ⟨iff_of_true rfl ⟨tries, Nat.le_refl _, by omega, hready⟩, Talk.refl m⟩
      · rw [awaitReady, if_neg hready]
        obtain ⟨hiff, htalk⟩ := ih (tries + 1) (m.debugPrintf (waiting (tries + 1)))
        refine ⟨hiff.trans ⟨?_, ?_⟩, (talk_debugPrintf _ m).trans htalk⟩
        · rintro ⟨i, hlow, hhigh, hi⟩
          exact ⟨i, by omega, by omega, hi⟩
        · rintro ⟨i, hlow, hhigh, hi⟩
          have hne : i ≠ tries := fun heq => hready (heq ▸ hi)
          exact ⟨i, by omega, by omega, hi⟩

theorem awaitReady_eq (ready : Nat → Bool) (waiting : Nat → String) (notReady : String)
    (count : Nat) (m : Rig) :
    ∃ m', m.awaitReady ready waiting notReady 0 count = (readyWithin count ready, m') ∧ Talk m m' := by
  obtain ⟨hiff, htalk⟩ := awaitReady_spec ready waiting notReady count 0 m
  refine ⟨_, Prod.ext ?_ rfl, htalk⟩
  rw [Bool.eq_iff_iff, hiff, readyWithin, List.any_eq_true]
  constructor
  · rintro ⟨i, _, hhigh, hi⟩
    exact ⟨i, List.mem_range.mpr (by omega), hi⟩
  · rintro ⟨i, hmem, hi⟩
    have hlt := List.mem_range.mp hmem
    exact ⟨i, Nat.zero_le i, by omega, hi⟩

/-- The rig does to the clock generator what the calls do, and otherwise only talks. -/
def Follows (calls : Si5351aDriver → Int × Si5351aDriver) (does : Rig → Int × Rig) : Prop :=
  ∀ m, (does m).1 = (calls m.clock).1 ∧ Talk { m with clock := (calls m.clock).2 } (does m).2

theorem follows_last (call : Si5351aDriver → Int × Si5351aDriver) (failed : String) :
    Follows call (attempt call failed fun m => (0, m)) := by
  intro m
  unfold attempt
  dsimp only
  split
  · exact ⟨rfl, talk_debugPrintf failed _⟩
  · next hsent => exact ⟨(not_not.mp hsent).symm, Talk.refl _⟩

theorem Follows.attempt {calls : Si5351aDriver → Int × Si5351aDriver}
    {does : Rig → Int × Rig} (h : Follows calls does)
    (call : Si5351aDriver → Int × Si5351aDriver) (failed : String) :
    Follows (fun clock => following (call clock) calls) (attempt call failed does) := by
  intro m
  unfold Rig.attempt following
  dsimp only
  split
  · exact ⟨rfl, talk_debugPrintf failed _⟩
  · exact h { m with clock := (call m.clock).2 }

section Calls

variable {floor128 : UInt32 → UInt32 → Nat} {pllHz : UInt32 → UInt32 → UInt32 → UInt32 → UInt32}
variable {cfg : Si5351aDts} (sur : Surroundings) (m : Rig)

theorem initSi5351a_spec :
    (readyWithin 5 sur.si5351aReady = true →
        (m.initSi5351a floor128 pllHz cfg sur).1 = (m.clock.setUp floor128 pllHz cfg).1
          ∧ Talk { m with clock := (m.clock.setUp floor128 pllHz cfg).2 }
            (m.initSi5351a floor128 pllHz cfg sur).2)
      ∧ (readyWithin 5 sur.si5351aReady = false →
        (m.initSi5351a floor128 pllHz cfg sur).1 = -1
          ∧ Talk m (m.initSi5351a floor128 pllHz cfg sur).2) := by
  have hcalls : Follows (fun clock => clock.setUp floor128 pllHz cfg) _ :=
    (((follows_last (fun clock => clock.enableOutput 0 true)
      "[SI5351A] Failed to enable output").attempt (fun clock => clock.resetPll true true)
      "[SI5351A] Failed to reset PLL").attempt
      (fun clock => clock.setMsFreq floor128 0 500000 0 Si5351a.pllA)
      "[SI5351A] Failed to set multisynth registers").attempt
      (fun clock => clock.setPllFreq floor128 pllHz cfg Si5351a.pllA 600000000)
      "[SI5351A] Failed to set PLLA registers"
  rw [initSi5351a]
  dsimp only
  obtain ⟨m', hawait, htalk⟩ := awaitReady_eq sur.si5351aReady
    (fmtAttempt "[SI5351A] Waiting for device" si5351aTryCount)
    (fmtNotReady "[SI5351A] Device" si5351aTryCount) si5351aTryCount
    (m.debugPrintf "[SI5351A] Starting init")
  rw [hawait]
  constructor
  · intro hready
    rw [show readyWithin si5351aTryCount sur.si5351aReady = true from hready]
    obtain ⟨out, oled, hsaid⟩ := ((talk_debugPrintf _ m).trans htalk).debugPrintf
      "[SI5351A] setting pll registers"
    dsimp only
    rw [hsaid]
    obtain ⟨hret, htalks⟩ :=
      hcalls { m with device := { m.device with out }, oledInitialized := oled }
    exact ⟨hret, Talk.trans ⟨out, oled, rfl⟩ htalks⟩
  · intro hready
    rw [show readyWithin si5351aTryCount sur.si5351aReady = false from hready]
    exact ⟨rfl, (talk_debugPrintf _ m).trans htalk⟩

theorem initRtc_spec :
    ((m.initRtc sur).1 < 0 ↔ readyWithin 5 sur.rtcReady = false) ∧ Talk m (m.initRtc sur).2 := by
  rw [initRtc]
  obtain ⟨m', hawait, htalk⟩ := awaitReady_eq sur.rtcReady
    (fmtAttempt "[RTC] Waiting for device" rtcTryCount) (fmtNotReady "[RTC] Device" rtcTryCount)
    rtcTryCount (m.debugPrintf "[RTC] Starting RTC init")
  have hsaid := (talk_debugPrintf "[RTC] Starting RTC init" m).trans htalk
  rw [hawait, show readyWithin rtcTryCount sur.rtcReady = readyWithin 5 sur.rtcReady from rfl]
  cases readyWithin 5 sur.rtcReady with
  | true =>
      exact ⟨iff_of_false (Int.lt_irrefl 0) (Ne.symm Bool.false_ne_true), hsaid.debugPrintf _⟩
  | false => exact ⟨iff_of_true (Int.negSucc_lt_zero 0) rfl, hsaid⟩

/-- The device when the regulator has its voltage and has been switched off once. -/
def regulated (d : Device) : Device :=
  let microvolt := if d.result.1 < 0 then d.regulator.microvolt else 1200000
  { d with
    regulator := { d.regulator with refcnt := d.regulator.refcnt - 1, microvolt }
    results := d.result.2.results }

/-- A voltage is set unless the driver refuses it. -/
theorem regulatorSetVoltage_left (d : Device) (uv : Int) :
    (d.regulatorSetVoltage uv).2 = { d with
      regulator := { d.regulator with
        microvolt := if d.result.1 < 0 then d.regulator.microvolt else uv }
      results := d.result.2.results } := by
  obtain ⟨results, hr⟩ := d.result_touches
  rw [regulatorSetVoltage]
  dsimp only
  rw [hr]
  by_cases hret : d.result.1 < 0
  · rw [if_pos hret, if_pos hret]
  · rw [if_neg hret, if_neg hret]

/-- Where nobody uses the regulator, `regulator_disable` does not reach the driver. -/
theorem regulatorDisable_unused {d : Device} (hunused : d.regulator.refcnt = 0) :
    d.regulatorDisable
      = (0, { d with regulator := { d.regulator with refcnt := d.regulator.refcnt - 1 } }) := by
  have hnot : ¬ d.regulator.refcnt - 1 = 0 := by omega
  rw [regulatorDisable]
  exact if_neg hnot

theorem regulated_eq {d : Device} (hunused : d.regulator.refcnt = 0) (text : String) :
    ∃ out, ((d.regulatorSetVoltage 1200000).2.sendDebugMessage text).regulatorDisable.2
      = { regulated d with out } := by
  rw [regulatorSetVoltage_left, sendDebugMessage_eq, regulatorDisable_unused (by exact hunused)]
  exact ⟨_, rfl⟩

/-- What was said before makes no difference. -/
theorem regulated_out (d : Device) (out : List Output) :
    regulated { d with out } = { regulated d with out } := by
  obtain ⟨_, _, _, _, _, _, _, _, _, _, _, results, _, _, _, _⟩ := d
  cases results with
  | nil => rfl
  | cons ret results => rfl

theorem regulatorInit_spec (hunused : m.device.regulator.refcnt = 0) :
    Talk (if readyWithin 5 sur.regulatorReady = true
        then { m with device := regulated m.device } else m)
      (m.regulatorInit sur).2 := by
  rw [regulatorInit]
  obtain ⟨m', hawait, htalk⟩ := awaitReady_eq sur.regulatorReady
    (fmtAttempt "[REG] Waiting for regulator" regulatorTryCount)
    (fmtNotReady "[REG] Regulator" regulatorTryCount) regulatorTryCount
    (m.debugPrintf "[REG] Starting regulator init")
  have hsaid := (talk_debugPrintf "[REG] Starting regulator init" m).trans htalk
  rw [hawait,
    show readyWithin regulatorTryCount sur.regulatorReady = readyWithin 5 sur.regulatorReady from rfl]
  cases readyWithin 5 sur.regulatorReady with
  | false => exact hsaid
  | true =>
      obtain ⟨out, oled, heq⟩ := hsaid.debugPrintf "[REG] Regulator ready, setting voltage to 1.2V"
      dsimp only
      rw [heq]
      refine Talk.debugPrintf (Talk.debugPrintf ?_ _) _
      obtain ⟨out', hregulated⟩ := @regulated_eq { m.device with out } hunused
        ("[REG] set_voltage returned "
          ++ toString ({ m.device with out }.regulatorSetVoltage 1200000).1)
      rw [regulated_out] at hregulated
      exact ⟨out', oled, congrArg (fun device => Rig.mk m.clock device oled) hregulated⟩

/-- `tr_switch_init` fails only where a pin is not ready. -/
theorem trSwitchInit_spec :
    ((m.trSwitchInit sur).1 < 0 ↔ ¬ (sur.trFwdReady = true ∧ sur.trBwdReady = true))
      ∧ (¬ (m.trSwitchInit sur).1 < 0 → (m.trSwitchInit sur).2
        = { m with device := { m.device with trFwd := false, trBwd := true, txActive := false } }) := by
  rw [trSwitchInit]
  split
  · next hpin =>
      have hneg : (-19 : Int) < 0 := by decide
      refine ⟨iff_of_true hneg ?_, fun h => absurd hneg h⟩
      rintro ⟨hfwd, hbwd⟩
      rw [hfwd, hbwd] at hpin
      exact hpin.elim (Ne.symm Bool.false_ne_true) (Ne.symm Bool.false_ne_true)
  · next hpins =>
      obtain ⟨hfwd, hbwd⟩ := not_or.mp hpins
      refine ⟨iff_of_false (Int.lt_irrefl 0) (not_not.mpr ⟨?_, ?_⟩), fun _ => rfl⟩
      · exact Bool.eq_true_of_not_eq_false hfwd
      · exact Bool.eq_true_of_not_eq_false hbwd

theorem initOled_spec : Talk m (m.initOled sur).2 := by
  rw [initOled]
  obtain ⟨m', hawait, htalk⟩ := awaitReady_eq sur.oledReady
    (fmtAttempt "[OLED] Waiting for device" oledTryCount) (fmtNotReady "[OLED] Device" oledTryCount)
    (oledTryCount - 1) (m.debugPrintf "[OLED] Starting OLED init")
  have hsaid := (talk_debugPrintf "[OLED] Starting OLED init" m).trans htalk
  rw [hawait]
  cases readyWithin (oledTryCount - 1) sur.oledReady with
  | false => exact hsaid
  | true =>
      have hframe := hsaid.debugPrintf "[OLED] Initializing framebuffer"
      have hfont := hframe.debugPrintf "[OLED] Setting font"
      have hdisplay := hfont.debugPrintf "[OLED] Turning on display"
      dsimp only
      split
      · exact hframe.debugPrintf _
      split
      · exact hfont.debugPrintf _
      split
      · exact hdisplay.debugPrintf _
      · obtain ⟨out, oled, heq⟩ := hdisplay
        rw [heq]
        exact ⟨out, true, rfl⟩

/-- What `main` has done to the device when it gets to its loop, but for the clock generator. -/
def settled (sur : Surroundings) (d : Device) : Device :=
  let d := if readyWithin 5 sur.regulatorReady = true then regulated d else d
  { d with
    trFwd := false, trBwd := true, txActive := false
    txTimer := none, txWork := false, activeSeq := none, engineActive := false }

theorem settled_out (d : Device) (out : List Output) :
    settled sur { d with out } = { settled sur d with out } := by
  rw [settled, settled]
  split
  · rw [regulated_out]
  · rfl

/-- `main` after the clock generator. -/
theorem main_spec {m₁ : Rig} {ret : Int}
    (hinit : (m.debugPrintf "=== minihf boot ===").initSi5351a floor128 pllHz cfg sur = (ret, m₁))
    (hunused : m₁.device.regulator.refcnt = 0) :
    ((m.main floor128 pllHz cfg sur).1 = true ↔ ¬ ret < 0 ∧ readyWithin 5 sur.rtcReady = true
        ∧ sur.trFwdReady = true ∧ sur.trBwdReady = true)
      ∧ ((m.main floor128 pllHz cfg sur).1 = true →
        Talk { m₁ with device := settled sur m₁.device } (m.main floor128 pllHz cfg sur).2) := by
  have hfalse : ¬ false = true := Bool.false_ne_true
  rw [main]
  dsimp only
  rw [hinit]
  dsimp only
  by_cases hclock : ret < 0
  · rw [if_pos hclock]
    exact ⟨iff_of_false hfalse fun h => h.1 hclock, fun h => absurd h hfalse⟩
  rw [if_neg hclock]
  -- the regulator may be missing
  have hregulator := regulatorInit_spec sur m₁ hunused
  generalize m₁.regulatorInit sur = regulator at hregulator ⊢
  obtain ⟨ret₂, m₂⟩ := regulator
  dsimp only at hregulator ⊢
  have hwithout : Talk m₂ (if ret₂ < 0
      then m₂.debugPrintf "[MAIN] Regulator init failed, continuing without it" else m₂) := by
    split
    · exact talk_debugPrintf _ m₂
    · exact Talk.refl m₂
  generalize (if ret₂ < 0 then m₂.debugPrintf "[MAIN] Regulator init failed, continuing without it"
    else m₂) = m₂' at hwithout ⊢
  obtain ⟨hrtc, htalk₃⟩ := initRtc_spec sur m₂'
  generalize m₂'.initRtc sur = rtc at hrtc htalk₃ ⊢
  obtain ⟨ret₃, m₃⟩ := rtc
  dsimp only at hrtc htalk₃ ⊢
  by_cases hfails : ret₃ < 0
  · rw [if_pos hfails]
    refine ⟨iff_of_false hfalse fun h => ?_, fun h => absurd h hfalse⟩
    exact hfalse ((hrtc.mp hfails).symm.trans h.2.1)
  rw [if_neg hfails]
  have hkeeps : readyWithin 5 sur.rtcReady = true :=
    Bool.eq_true_of_not_eq_false fun h => hfails (hrtc.mpr h)
  obtain ⟨hrelays, hset⟩ := trSwitchInit_spec sur m₃
  generalize m₃.trSwitchInit sur = relays at hrelays hset ⊢
  obtain ⟨ret₄, m₄⟩ := relays
  dsimp only at hrelays hset ⊢
  by_cases hpins : ret₄ < 0
  · rw [if_pos hpins]
    exact ⟨iff_of_false hfalse fun h => hrelays.mp hpins h.2.2, fun h => absurd h hfalse⟩
  rw [if_neg hpins]
  refine ⟨iff_of_true rfl ⟨hclock, hkeeps, not_not.mp fun h => hpins (hrelays.mpr h)⟩, fun _ => ?_⟩
  obtain ⟨out, oled, heq⟩ := (hregulator.trans hwithout).trans htalk₃
  have hfour : m₄ = _ := hset hpins
  have hdisplay := initOled_spec sur m₄
  generalize m₄.initOled sur = display at hdisplay ⊢
  obtain ⟨ret₅, m₅⟩ := display
  dsimp only at hdisplay ⊢
  have hdark : Talk m₅ (if ret₅ < 0
      then m₅.debugPrintf "[MAIN] OLED init failed, continuing without it" else m₅) := by
    split
    · exact talk_debugPrintf _ m₅
    · exact Talk.refl m₅
  obtain ⟨out₅, oled₅, hfive⟩ := (hdisplay.trans hdark).debugPrintf "[MAIN] Initializing TX engine"
  refine Talk.debugPrintf (Talk.debugPrintf ?_ _) _
  rw [hfive, hfour, heq]
  rw [settled]
  split
  · exact ⟨_, oled₅, rfl⟩
  · exact ⟨_, oled₅, rfl⟩

/-! ## What `main` insists on, and what it leaves -/

/-- What `main` needs to get to its loop. -/
structure Boots (cfg : Si5351aDts) (sur : Surroundings) (clock : Si5351aDriver) : Prop where
  clockReady : readyWithin 5 sur.si5351aReady = true
  multiplies : Multiplies cfg 600000000
  sends : clock.Sends 6
  rtcReady : readyWithin 5 sur.rtcReady = true
  relaysReady : sur.trFwdReady = true ∧ sur.trBwdReady = true

/-- The device that the commands find; without the regulator, its use count is still zero. -/
def found (sur : Surroundings) (regs : UInt8 → UInt8) (rtcTime : RtcTime) (microvolt : Int)
    (results : List Int) : Device :=
  if readyWithin 5 sur.regulatorReady = true then
    boot regs rtcTime (if results.headD 0 < 0 then microvolt else 1200000) results.tail
  else
    { boot regs rtcTime microvolt results with
      regulator := { refcnt := 0, outputOn := false, microvolt } }

/-- The rig in the loop of `main`. -/
structure Booted (xtal : Nat) (device : (UInt8 → UInt8) → Device) (m : Rig) : Prop where
  running : ∃ out, m.running = { device m.clock.regs with out }
  shared : m.clock.regs Si5351aDriver.outputEnableControl = 0xFE
  frequency : ∃ f, outputHz xtal m.clock.regs 0 = some f ∧ 500000 ≤ f
    ∧ f < 500000 * (1 + 1 / 5000000)
  others : ∀ k : Fin 8, k ≠ 0 → Down k m.clock

/-- What `main` has made of the device before its first line is what the commands find. -/
theorem settled_powered {clock : Si5351aDriver} (rtcTime : RtcTime) (trFwd trBwd : Bool)
    (microvolt : Int) (results : List Int) {regs : UInt8 → UInt8}
    (hshared : regs Si5351aDriver.outputEnableControl = 0xFE) :
    { settled sur (powered clock rtcTime trFwd trBwd microvolt results).device with
      si5351aRegs := regs } = found sur regs rtcTime microvolt results := by
  have hregs : (fun r => if r = Device.outputEnableControl then 0xFE else regs r) = regs := by
    funext r
    split
    · next h => exact hshared.symm.trans (congrArg regs h.symm)
    · rfl
  rw [settled, found, boot, boot, hregs]
  split
  · cases results with
    | nil => rfl
    | cons ret results => rfl
  · rfl

/-- A round of the loop reads the status and tells it. -/
theorem Booted.round {xtal : Nat} {device : (UInt8 → UInt8) → Device} {m : Rig}
    (h : Booted xtal device m) (transfers : List Transfer) :
    Booted xtal device (m.round transfers) := by
  have hregs : (m.round transfers).clock.regs = m.clock.regs := by
    funext r
    exact @regs_exec (fun _ _ => 0) (fun _ _ _ _ => 0) dts { m.clock with transfers } .updateStatus r
      List.not_mem_nil
  constructor
  case running =>
    obtain ⟨out, heq⟩ := h.running
    obtain ⟨said, _, hsaid⟩ := talk_debugPrintf
      (statusText { m.clock with transfers }.updateStatus.2.devStatus)
      { m with clock := { m.clock with transfers }.updateStatus.2 }
    refine ⟨said, ?_⟩
    have hrunning : (m.round transfers).running = { m.running with out := said } := by
      rw [Rig.running, hregs, Rig.round]
      dsimp only
      rw [hsaid, Rig.running]
    rw [hrunning, heq, hregs]
  case shared => rw [hregs, h.shared]
  case frequency => rw [hregs]; exact h.frequency
  case others =>
    intro k hk
    rw [Down, hregs]
    exact h.others k hk

/--
**Booting.**

After `si5351a_init`, `main` gets to its loop exactly if it finds all it insists on. Then the
device is the one the commands start from, with 500 kHz at output 0 to a fifth of a millionth
and no other output powered up, and no round of the loop changes any of this. No command is
handled meanwhile.
-/
theorem boots {clock : Si5351aDriver} (rtcTime : RtcTime) (trFwd trBwd : Bool) (microvolt : Int)
    (results : List Int) (hfloor : Exact128 floor128) (hhz : RoundedHz pllHz)
    (hxtal : 0 < cfg.xtalFreq.toNat) (hquiet : Quiet clock) :
    let out := (powered clock rtcTime trFwd trBwd microvolt results).main floor128 pllHz cfg sur
    (out.1 = true ↔ Boots cfg sur clock) ∧ (out.1 = true → ∀ rounds,
      Booted cfg.xtalFreq.toNat (fun regs => found sur regs rtcTime microvolt results)
        (run round out.2 rounds)) := by
  intro out
  obtain ⟨hready, hmissing⟩ := @initSi5351a_spec floor128 pllHz cfg sur
    ((powered clock rtcTime trFwd trBwd microvolt results).debugPrintf "=== minihf boot ===")
  have hneeds := @needs_setUp floor128 pllHz cfg hfloor hhz hxtal clock
  have hfails := hneeds.nonpos
  have hall := hneeds.success
  generalize hinit : ((powered clock rtcTime trFwd trBwd microvolt results).debugPrintf
    "=== minihf boot ===").initSi5351a floor128 pllHz cfg sur = init at hready hmissing
  obtain ⟨ret, m₁⟩ := init
  have hspec := main_spec sur _ hinit
  have hsays := talk_debugPrintf "=== minihf boot ==="
    (powered clock rtcTime trFwd trBwd microvolt results)
  dsimp only at hready hmissing
  cases hshows : readyWithin 5 sur.si5351aReady with
  | false =>
      obtain ⟨hret, hsaid⟩ := hmissing hshows
      obtain ⟨said, oled, rfl⟩ := hsays.trans hsaid
      have hneg : (-1 : Int) < 0 := Int.negSucc_lt_zero 0
      have hnever : ¬ out.1 = true := fun h => ((hspec rfl).1.mp h).1 (hret ▸ hneg)
      refine ⟨iff_of_false hnever fun h => ?_, fun h => absurd h hnever⟩
      exact Bool.false_ne_true (hshows.symm.trans h.clockReady)
  | true =>
      obtain ⟨hret, hsaid⟩ := hready hshows
      have hclock : ((powered clock rtcTime trFwd trBwd microvolt results).debugPrintf
        "=== minihf boot ===").clock = clock := rfl
      rw [hclock] at hret hsaid
      obtain ⟨said₀, oled₀, heq₀⟩ := hsays
      rw [heq₀] at hsaid
      obtain ⟨said, oled, rfl⟩ := hsaid
      obtain ⟨hreaches, hleaves⟩ := hspec rfl
      have hset : ¬ ret < 0 ↔ (clock.setUp floor128 pllHz cfg).1 = 0 := by omega
      rw [hset, hall] at hreaches
      refine ⟨hreaches.trans ⟨fun h => ?_, fun h => ?_⟩, fun hin rounds => ?_⟩
      · exact ⟨hshows, h.1.1, h.1.2, h.2.1, h.2.2⟩
      · exact ⟨⟨h.multiplies, h.sends⟩, h.rtcReady, h.relaysReady⟩
      · have hzero := hall.mpr (hreaches.mp hin).1
        obtain ⟨hshared, hfreq, hothers⟩ := setUp_leaves hfloor hhz hxtal hquiet hzero
        refine run_invariant (fun m transfers h => h.round transfers) ?_ rounds
        obtain ⟨said', oled', heq⟩ := hleaves hin
        dsimp only at heq
        rw [settled_out] at heq
        have hsame : out.2.clock = (clock.setUp floor128 pllHz cfg).2 := congrArg Rig.clock heq
        constructor
        case running =>
          refine ⟨said', ?_⟩
          rw [← settled_powered sur rtcTime trFwd trBwd microvolt results (hsame ▸ hshared)]
          rw [Rig.running, show out.2.device = _ from congrArg Rig.device heq]
        case shared => rwa [hsame]
        case frequency => rwa [hsame]
        case others => rwa [hsame]

end Calls

/-- The clock generator shows up at the third look, the regulator and the display never. -/
def slow : Surroundings where
  si5351aReady look := look = 2
  regulatorReady _ := false
  rtcReady _ := true
  oledReady _ := false
  trFwdReady := true
  trBwdReady := true
  framebufferInit := 0
  framebufferSetFont := 0
  blankingOff := 0

/-- A board without a regulator boots, also if its clock generator cannot be asked later. -/
theorem boots_slow :
    let rtcTime : RtcTime := ⟨100, 0, 1, 0, 0, 0⟩
    let clock := (coldDriver.init dts true).2
    let out := (powered clock rtcTime false false 800000 []).main doubleFloor128 doubleHz dts slow
    out.1 = true ∧ Booted dts.xtalFreq.toNat (fun regs => found slow regs rtcTime 800000 [])
      (run round out.2 [[], [torn]]) := by
  dsimp only
  have hquiet : Quiet (coldDriver.init dts true).2 := init_quiet (by decide +kernel)
  have hsends : (coldDriver.init dts true).2.transfers = [] := by decide +kernel
  generalize (coldDriver.init dts true).2 = clock at hquiet hsends ⊢
  have hxtal : 0 < dts.xtalFreq.toNat := by decide
  obtain ⟨hreaches, hleaves⟩ := boots slow ⟨100, 0, 1, 0, 0, 0⟩ false false 800000 []
    exact_doubleFloor128 rounded_doubleHz hxtal hquiet
  have hboots : Boots dts slow clock := by
    refine ⟨by decide, ⟨by decide, by decide⟩, fun t ht => ?_, by decide, rfl, rfl⟩
    rw [hsends] at ht
    cases ht
  exact ⟨hreaches.mpr hboots, hleaves (hreaches.mpr hboots) [[], [torn]]⟩

end Rig

end MiniHF
