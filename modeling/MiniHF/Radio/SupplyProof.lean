import MiniHF.Radio.HandlerProof
import MiniHF.Radio.TxEngine

/-!
# The regulator and the script of driver results

`Supply` is the regulator together with the results the next driver calls return.
A switch of the regulator is a function on it, `Supply.switch`: the core calls the
driver only when the use count becomes 1 or 0, and only then a result is used up.
Everything that ends in a switch, commands and engine alike, comes down to one
equation on the supply.
-/

namespace MiniHF

open Interrupts Interrupts.Code

/-- The regulator and the results of the driver calls to come. -/
structure Supply where
  regulator : Regulator
  results : List Int
deriving DecidableEq

namespace Supply

/-- What the `k`-th driver call from now returns; an exhausted script returns success. -/
def returns (s : Supply) (k : Nat) : Int := s.results.getD k 0

/-- The supply when `k` driver calls have returned. -/
def skip (s : Supply) (k : Nat) : Supply := { s with results := s.results.drop k }

/-- The core calls the driver for this switch. -/
def calls (s : Supply) (on : Bool) : Prop := s.regulator.refcnt = if on then 0 else 1

instance (s : Supply) (on : Bool) : Decidable (s.calls on) :=
  inferInstanceAs (Decidable (s.regulator.refcnt = if on then 0 else 1))

/-- `regulator_enable` or `regulator_disable`. -/
def switch (s : Supply) (on : Bool) : Supply :=
  if s.calls on then
    if s.returns 0 < 0 then s.skip 1
    else { s.skip 1 with
      regulator := { s.regulator with refcnt := if on then 1 else 0, outputOn := on } }
  else { s with
    regulator := { s.regulator with
      refcnt := if on then s.regulator.refcnt + 1 else s.regulator.refcnt - 1 } }

theorem returns_skip (s : Supply) (k j : Nat) : (s.skip k).returns j = s.returns (k + j) := by
  simp [returns, skip, List.getD_eq_getElem?_getD]

theorem skip_skip (s : Supply) (k j : Nat) : (s.skip k).skip j = s.skip (k + j) := by
  simp [skip]

/-- How many driver calls the switch makes. -/
def callCount (s : Supply) (on : Bool) : Nat := if s.calls on then 1 else 0

theorem switch_results (s : Supply) (on : Bool) :
    (s.switch on).results = s.results.drop (s.callCount on) := by
  rw [switch, callCount]
  split
  · split <;> rfl
  · rfl

theorem switch_microvolt (s : Supply) (on : Bool) :
    (s.switch on).regulator.microvolt = s.regulator.microvolt := by
  rw [switch]
  split
  · split <;> rfl
  · rfl

/-! ## Switches that are obeyed -/

/-- The switch will be obeyed: the driver is called and does it, or the output is there already. -/
def obeys (s : Supply) (on : Bool) : Prop :=
  if s.calls on then s.returns 0 = 0 else s.regulator.outputOn = on

theorem obeys_iff (s : Supply) (on : Bool) :
    s.obeys on ↔ (∀ j < s.callCount on, s.returns j = 0)
      ∧ (s.switch on).regulator.outputOn = on := by
  rw [obeys, callCount, switch]
  by_cases hcall : s.calls on
  · rw [if_pos hcall, if_pos hcall, if_pos hcall]
    constructor
    · intro h
      rw [if_neg (by omega)]
      refine ⟨fun j hj => ?_, rfl⟩
      obtain rfl : j = 0 := by omega
      exact h
    · rintro ⟨h, _⟩
      exact h 0 Nat.one_pos
  · rw [if_neg hcall, if_neg hcall, if_neg hcall]
    simp

/-- The output will be on after a switch off and a switch on, and no call will fail. -/
def cycles (s : Supply) : Prop :=
  if s.calls false then s.returns 0 = 0 ∧ s.returns 1 = 0 else s.regulator.outputOn = true

/-- A switch the driver is called for and does. -/
theorem switch_called {s : Supply} {on : Bool} (hcall : s.calls on) (hret : ¬ s.returns 0 < 0) :
    s.switch on = { s.skip 1 with
      regulator := { s.regulator with refcnt := if on then 1 else 0, outputOn := on } } := by
  rw [switch, if_pos hcall, if_neg hret]

/-- A switch that only counts. -/
theorem switch_counted {s : Supply} {on : Bool} (hcall : ¬ s.calls on) :
    s.switch on = { s with
      regulator := { s.regulator with
        refcnt := if on then s.regulator.refcnt + 1 else s.regulator.refcnt - 1 } } := by
  rw [switch, if_neg hcall]

/-- Where the switch off only counted, the switch on does as well. -/
theorem not_calls_again {s : Supply} (hcall : ¬ s.calls false) : ¬ (s.switch false).calls true := by
  rw [switch_counted hcall]
  intro hnone
  apply hcall
  show s.regulator.refcnt = 1
  have : s.regulator.refcnt - 1 = 0 := hnone
  omega

theorem cycles_iff (s : Supply) :
    s.cycles ↔ (∀ j < s.callCount false + (s.switch false).callCount true, s.returns j = 0)
      ∧ ((s.switch false).switch true).regulator.outputOn = true := by
  rw [cycles]
  by_cases hcall : s.calls false
  · rw [if_pos hcall]
    by_cases hfail : s.returns 0 < 0
    · -- the first call fails, and that is a call that fails
      have hcount : s.callCount false = 1 := if_pos hcall
      constructor
      · rintro ⟨h, _⟩
        omega
      · rintro ⟨h, _⟩
        have := h 0 (by omega)
        omega
    · have hoff := switch_called hcall hfail
      have hagain : (s.switch false).calls true := by
        rw [hoff]
        rfl
      have hobeys := obeys_iff (s.switch false) true
      rw [obeys, if_pos hagain] at hobeys
      have hreturns : ∀ j, (s.switch false).returns j = s.returns (1 + j) := by
        intro j
        rw [hoff]
        exact returns_skip s 1 j
      have hone : (s.switch false).callCount true = 1 := if_pos hagain
      rw [show s.callCount false = 1 from if_pos hcall, hone]
      rw [hone, hreturns] at hobeys
      constructor
      · rintro ⟨h₀, h₁⟩
        refine ⟨fun j hj => ?_, (hobeys.mp h₁).2⟩
        obtain rfl | rfl : j = 0 ∨ j = 1 := by omega
        · exact h₀
        · exact h₁
      · rintro ⟨h, _⟩
        exact ⟨h 0 (by omega), h 1 (by omega)⟩
  · have hagain := not_calls_again hcall
    rw [if_neg hcall, show s.callCount false = 0 from if_neg hcall,
      show (s.switch false).callCount true = 0 from if_neg hagain, switch_counted hagain,
      switch_counted hcall]
    simp

end Supply

namespace Device

def supply (d : Device) : Supply := ⟨d.regulator, d.results⟩

theorem result_eq (d : Device) :
    d.result = (d.supply.returns 0, { d with results := d.results.drop 1 }) := by
  unfold result
  split
  · rename_i h
    cases d
    dsimp only at h
    subst h
    rfl
  · rename_i ret results h
    rw [Supply.returns, supply, h]
    rfl

/-! ## Statements that leave the supply alone -/

section Statements

variable (d : Device)

@[simp] theorem supply_printk (text : String) : (d.printk text).supply = d.supply := rfl

@[simp] theorem supply_sendAck (id : UInt16) : (d.sendAck id).supply = d.supply := rfl

@[simp] theorem supply_kTimerStart (duration : UInt32) :
    (d.kTimerStart duration).supply = d.supply := rfl

@[simp] theorem supply_kTimerStop : d.kTimerStop.supply = d.supply := rfl

@[simp] theorem supply_kWorkCancel : d.kWorkCancel.supply = d.supply := rfl

@[simp] theorem supply_setEngineActive (b : Bool) : (d.setEngineActive b).supply = d.supply := rfl

@[simp] theorem supply_setActiveSeq (seq : Option TxSequence) :
    (d.setActiveSeq seq).supply = d.supply := rfl

@[simp] theorem supply_setCurrentIndex (i : Nat) : (d.setCurrentIndex i).supply = d.supply := rfl

@[simp] theorem supply_noteStart (seq : TxSequence) : (d.noteStart seq).supply = d.supply := rfl

@[simp] theorem supply_noteSymbol (sym : TxSymbol) : (d.noteSymbol sym).supply = d.supply := rfl

end Statements

/-! ## Driver calls -/

theorem supply_regulatorSwitch (d : Device) (on : Bool) :
    (d.regulatorSwitch on).2.supply = d.supply.switch on := by
  cases on with
  | true =>
      rw [regulatorSwitch, if_pos rfl, regulatorEnable, Supply.switch]
      dsimp only
      by_cases hcall : d.supply.calls true
      · have hcount : d.regulator.refcnt + 1 = 1 := by
          rw [show d.regulator.refcnt = 0 from hcall]
          rfl
        rw [if_pos hcount, if_pos hcall, result_eq]
        dsimp only
        split
        · rfl
        · rw [hcount]
          rfl
      · rw [if_neg hcall, if_neg (fun h => hcall (by
          show d.regulator.refcnt = 0
          omega))]
        rfl
  | false =>
      rw [regulatorSwitch, if_neg (by simp), regulatorDisable, Supply.switch]
      dsimp only
      by_cases hcall : d.supply.calls false
      · have hcount : d.regulator.refcnt - 1 = 0 := by
          rw [show d.regulator.refcnt = 1 from hcall]
          rfl
        rw [if_pos hcount, if_pos hcall, result_eq]
        dsimp only
        split
        · rfl
        · rw [hcount]
          rfl
      · rw [if_neg hcall, if_neg (fun h => hcall (by
          show d.regulator.refcnt = 1
          omega))]
        rfl

theorem supply_regulatorEnable (d : Device) :
    d.regulatorEnable.2.supply = d.supply.switch true := supply_regulatorSwitch d true

theorem supply_regulatorDisable (d : Device) :
    d.regulatorDisable.2.supply = d.supply.switch false := supply_regulatorSwitch d false

theorem rtcSetTime_eq (d : Device) (tm : RtcTime) :
    d.rtcSetTime tm
      = if d.supply.returns 0 = 0 then (0, { d with results := d.results.drop 1, rtcTime := tm })
        else (d.supply.returns 0, { d with results := d.results.drop 1 }) := by
  rw [rtcSetTime, result_eq]
  by_cases hret : d.supply.returns 0 = 0
  · rw [if_pos hret]
    exact if_neg (fun h => h hret)
  · rw [if_neg hret]
    exact if_pos hret

theorem supply_regulatorSetVoltage (d : Device) (uv : Int) :
    (d.regulatorSetVoltage uv).2.supply
      = if d.supply.returns 0 < 0 then d.supply.skip 1
        else { d.supply.skip 1 with regulator := { d.regulator with microvolt := uv } } := by
  rw [regulatorSetVoltage, result_eq]
  dsimp only
  split <;> rfl

theorem si5351aReadReg_eq (d : Device) (reg : UInt8) :
    d.si5351aReadReg reg
      = if d.supply.returns 0 = 0 then (0, d.si5351aRegs reg, { d with results := d.results.drop 1 })
        else (d.supply.returns 0, 0, { d with results := d.results.drop 1 }) := by
  rw [si5351aReadReg, result_eq]
  by_cases hread : d.supply.returns 0 = 0
  · rw [if_pos hread]
    exact if_neg (fun h => h hread)
  · rw [if_neg hread]
    exact if_pos hread

theorem supply_si5351aWriteReg (d : Device) (reg value : UInt8) :
    (d.si5351aWriteReg reg value).2.supply = d.supply.skip 1 := by
  rw [si5351aWriteReg, result_eq]
  dsimp only
  split <;> rfl

/-- The calls `si5351a_enable_output` makes: the write is left out when the read fails. -/
def enableOutputCalls (s : Supply) : Nat := if s.returns 0 = 0 then 2 else 1

theorem supply_si5351aEnableOutput (d : Device) (enable : Bool) :
    (d.si5351aEnableOutput txClkOutput enable).2.supply
      = d.supply.skip (enableOutputCalls d.supply) := by
  rw [si5351aEnableOutput, if_neg (by decide)]
  dsimp only
  rw [si5351aReadReg_eq, enableOutputCalls]
  by_cases hread : d.supply.returns 0 = 0
  · rw [if_pos hread, if_pos hread, if_neg (by simp), supply_si5351aWriteReg]
    exact Supply.skip_skip d.supply 1 1
  · rw [if_neg hread, if_neg hread, if_pos hread]
    rfl

/-- The driver calls of a start whose first symbol is keyed. -/
def startCalls (s : Supply) : Nat :=
  enableOutputCalls s + ((s.skip (enableOutputCalls s)).callCount false
    + ((s.skip (enableOutputCalls s)).switch false).callCount true)

theorem supply_stop (d : Device) :
    (txEngineStop.exec d).supply
      = (d.supply.skip (enableOutputCalls d.supply)).switch false := by
  simp only [txEngineStop, txOff, exec_act, exec_andThen, exec_done]
  rw [supply_setActiveSeq, supply_setEngineActive, supply_regulatorDisable,
    supply_si5351aEnableOutput, supply_printk, supply_kWorkCancel, supply_kTimerStop, supply_printk]

/-- **A start with a keyed first symbol** switches the regulator off and on again. -/
theorem supply_start (d : Device) {seq : TxSequence} (hseq : seq.totalSymbols ≠ 0)
    (hkeyed : (seq.symbol 0).txOn = true) :
    ((txEngineStart (some seq)).exec d).supply
      = ((d.supply.skip (enableOutputCalls d.supply)).switch false).switch true := by
  simp only [txEngineStart, if_neg hseq, applySymbol, hkeyed, if_true, exec_act, exec_andThen,
    exec_done]
  rw [supply_kTimerStart, supply_regulatorEnable, supply_noteSymbol, supply_printk,
    supply_setEngineActive, supply_setCurrentIndex, supply_noteStart, supply_setActiveSeq,
    supply_stop]

theorem results_start (d : Device) {seq : TxSequence} (hseq : seq.totalSymbols ≠ 0)
    (hkeyed : (seq.symbol 0).txOn = true) :
    ((txEngineStart (some seq)).exec d).results = d.results.drop (startCalls d.supply) := by
  have hsupply := congrArg Supply.results (supply_start d hseq hkeyed)
  rw [Supply.switch_results, Supply.switch_results, List.drop_drop] at hsupply
  exact hsupply.trans (by rw [Supply.skip, List.drop_drop]; rfl)

/-- No call of such a start fails, and it ends with the output on. -/
theorem startCalls_iff (s : Supply) :
    (∀ j < startCalls s, s.returns j = 0)
        ∧ (((s.skip (enableOutputCalls s)).switch false).switch true).regulator.outputOn = true
      ↔ s.returns 0 = 0 ∧ s.returns 1 = 0 ∧ (s.skip 2).cycles := by
  rw [startCalls]
  by_cases hread : s.returns 0 = 0
  · rw [show enableOutputCalls s = 2 from if_pos hread, Supply.cycles_iff]
    simp only [Supply.returns_skip]
    constructor
    · rintro ⟨hzero, hon⟩
      exact ⟨hread, hzero 1 (by omega), fun j hj => hzero _ (by omega), hon⟩
    · rintro ⟨_, hwrite, hzero, hon⟩
      refine ⟨fun j hj => ?_, hon⟩
      match j with
      | 0 => exact hread
      | 1 => exact hwrite
      | j + 2 =>
          rw [Nat.add_comm]
          exact hzero j (by omega)
  · have hcalls : 0 < enableOutputCalls s := by
      rw [enableOutputCalls]
      split <;> omega
    constructor
    · rintro ⟨hzero, _⟩
      exact absurd (hzero 0 (by omega)) hread
    · rintro ⟨h, _⟩
      exact absurd h hread

end Device

end MiniHF
