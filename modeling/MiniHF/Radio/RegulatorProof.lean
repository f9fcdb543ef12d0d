import MiniHF.Radio.ScheduleProof

/-!
# The power-amplifier regulator

`tx_off` disables the regulator whether or not it was enabled, and every start
begins with a stop. Once the use count of an idle engine is 0 or less it therefore
only falls, an enable never brings it to 1, and the output stays off. The engine
is right about the regulator exactly as long as no symbol is keyed.
-/

namespace MiniHF

open Interrupts Interrupts.Code Runs

namespace Device

/-! ## What the statements do to the regulator -/

section Statements

variable (d : Device)

@[simp] theorem regulator_printk (text : String) : (d.printk text).regulator = d.regulator := rfl

@[simp] theorem regulator_kTimerStart (duration : UInt32) :
    (d.kTimerStart duration).regulator = d.regulator := rfl

@[simp] theorem regulator_kTimerStop : d.kTimerStop.regulator = d.regulator := rfl

@[simp] theorem regulator_kWorkCancel : d.kWorkCancel.regulator = d.regulator := rfl

@[simp] theorem regulator_setEngineActive (b : Bool) :
    (d.setEngineActive b).regulator = d.regulator := rfl

@[simp] theorem regulator_setActiveSeq (seq : Option TxSequence) :
    (d.setActiveSeq seq).regulator = d.regulator := rfl

@[simp] theorem regulator_setCurrentIndex (i : Nat) :
    (d.setCurrentIndex i).regulator = d.regulator := rfl

@[simp] theorem regulator_noteStart (seq : TxSequence) :
    (d.noteStart seq).regulator = d.regulator := rfl

@[simp] theorem regulator_noteSymbol (sym : TxSymbol) :
    (d.noteSymbol sym).regulator = d.regulator := rfl

@[simp] theorem regulator_txTimerExpiry : d.txTimerExpiry.regulator = d.regulator := by
  unfold txTimerExpiry
  split <;> rfl

@[simp] theorem regulator_si5351aEnableOutput (output : UInt8) (enable : Bool) :
    (d.si5351aEnableOutput output enable).2.regulator = d.regulator := by
  obtain ⟨_, _, h⟩ := d.si5351aEnableOutput_touches output enable
  rw [h]

end Statements

/-! ## The use count only falls -/

theorem regulator_disable_low {d : Device} (h : d.regulator.refcnt ≤ 0) :
    d.regulatorDisable.2.regulator
      = { d.regulator with refcnt := d.regulator.refcnt - 1 } := by
  rw [regulatorDisable]
  dsimp only
  rw [if_neg (by omega)]

theorem regulator_enable_low {d : Device} (h : d.regulator.refcnt < 0) :
    d.regulatorEnable.2.regulator = { d.regulator with refcnt := d.regulator.refcnt + 1 } := by
  rw [regulatorEnable]
  dsimp only
  rw [if_neg (by omega)]

theorem regulator_txOff {d : Device} (h : d.regulator.refcnt ≤ 0) :
    (txOff.exec d).regulator = { d.regulator with refcnt := d.regulator.refcnt - 1 } := by
  rw [txOff, exec_act, exec_act, exec_act, exec_done, regulator_disable_low (by simpa using h)]
  simp

theorem regulator_stop {d : Device} (h : d.regulator.refcnt ≤ 0) :
    (txEngineStop.exec d).regulator = { d.regulator with refcnt := d.regulator.refcnt - 1 } := by
  simp only [txEngineStop, exec_act, exec_andThen, exec_done]
  rw [regulator_setActiveSeq, regulator_setEngineActive, regulator_txOff (by simpa using h)]
  simp

/-- A symbol moves the use count by one, and below 0 that calls no driver. -/
theorem regulator_applySymbol {sym : TxSymbol} {d : Device} (h : d.regulator.refcnt < 0) :
    ((applySymbol sym).exec d).regulator
      = { d.regulator with
          refcnt := d.regulator.refcnt + if sym.txOn then 1 else -1 } := by
  rw [applySymbol, exec_act]
  cases sym.txOn with
  | true =>
      rw [if_pos rfl, exec_act, exec_done, regulator_enable_low (by simpa using h)]
      simp
  | false =>
      rw [if_neg (by simp), regulator_txOff (by simpa using Int.le_of_lt h)]
      simp
      omega

theorem regulator_start {d : Device} {seq : TxSequence} (hseq : seq.totalSymbols ≠ 0)
    (h : d.regulator.refcnt ≤ 0) :
    ((txEngineStart (some seq)).exec d).regulator
      = { d.regulator with
          refcnt := d.regulator.refcnt - 1 + if (seq.symbol 0).txOn then 1 else -1 } := by
  have hstop := regulator_stop h
  simp only [txEngineStart, if_neg hseq, exec_act, exec_andThen, exec_done]
  rw [regulator_kTimerStart, regulator_applySymbol] <;> simp [hstop]
  omega

theorem regulator_nextSymbol {seq : TxSequence} {d : Device} (h : d.regulator.refcnt < 0) :
    ((txNextSymbol seq).exec d).regulator
      = { d.regulator with
          refcnt := d.regulator.refcnt
            + if (seq.symbol seq.currentIndex).txOn then 1 else -1 } := by
  simp only [txNextSymbol, exec_act, exec_andThen, exec_done]
  rw [regulator_kTimerStart, regulator_applySymbol (by simpa using h)]
  simp

/-- The symbol the work handler applies next, if it applies one. -/
def nextSymbol (d : Device) : Option TxSymbol :=
  (d.activeSeq.bind advance).map fun seq => seq.symbol seq.currentIndex

theorem regulator_work {d : Device} (h : d.regulator.refcnt < 0) (hseq : d.activeSeq.isSome) :
    (txWorkHandler.exec d).regulator
      = { d.regulator with
          refcnt := d.regulator.refcnt + if d.nextSymbol.any (·.txOn) then 1 else -1 } := by
  obtain ⟨seq, hseq⟩ := Option.isSome_iff_exists.mp hseq
  rw [txWorkHandler, exec_look, nextSymbol, hseq, Option.bind_some, advance]
  dsimp only
  rw [exec_act]
  by_cases hlast : seq.currentIndex + 1 ≥ seq.totalSymbols
  · rw [if_pos hlast, if_pos hlast]
    cases seq.repeats with
    | true =>
        rw [if_pos rfl, if_pos rfl, exec_act, exec_act, regulator_nextSymbol (by simpa using h)]
        simp
    | false =>
        rw [if_neg (by simp), if_neg (by simp), exec_act, exec_andThen, exec_act, exec_act,
          exec_done, regulator_setActiveSeq, regulator_setEngineActive,
          regulator_txOff (by simpa using Int.le_of_lt h)]
        simp
        omega
  · rw [if_neg hlast, if_neg hlast, regulator_nextSymbol (by simpa using h)]
    simp

/-! ## Whether the output follows the keying -/

/-- The output is on exactly while a keyed symbol is current. -/
def RegulatorFollows (d : Device) : Prop := d.regulator.outputOn = true ↔ d.schedule.keyed = true

/-- The step applies no keyed symbol. -/
def appliesUnkeyed (d : Device) : AtomicEvent EngineOp → Prop
  | .op (.start (some seq)) => seq.totalSymbols ≠ 0 → (seq.symbol 0).txOn = false
  | .op .work => d.txWork = true → d.nextSymbol.any (·.txOn) = false
  | _ => True

/-- The output is off, no enable can switch it on, and no keyed symbol is current. -/
structure RegulatorLow (d : Device) : Prop where
  scheduled : WellScheduled d
  unkeyed : d.schedule.keyed = false
  off : d.regulator.outputOn = false
  low : d.regulator.refcnt ≤ 0
  /-- The start of a sequence has disabled once more. -/
  below : d.activeSeq.isSome → d.regulator.refcnt < 0

theorem keyed_work (d : Device) (hactive : d.engineActive = true) :
    (txWorkHandler.exec d).schedule.keyed = d.nextSymbol.any (·.txOn) := by
  have hs : d.schedule.activeSeq = d.activeSeq := rfl
  have ha : d.schedule.engineActive = true := hactive
  rw [schedule_work, workSchedule, nextSymbol, hs]
  cases d.activeSeq with
  | none => simp [Schedule.keyed]
  | some seq =>
      dsimp only [Option.bind_some]
      cases advance seq with
      | none => simp [Schedule.keyed]
      | some seq' => simp [Schedule.keyed, ha]

theorem keyed_start {d : Device} {seq : TxSequence} (h : seq.totalSymbols ≠ 0) :
    ((txEngineStart (some seq)).exec d).schedule.keyed = (seq.symbol 0).txOn := by
  rw [schedule_start d h]
  simp [Schedule.keyed, startSchedule, TxSequence.symbol]

/-- A step that leaves the regulator and the sequence alone. -/
theorem RegulatorLow.frame {d d' : Device} (h : RegulatorLow d) (hs : WellScheduled d')
    (hreg : d'.regulator = d.regulator) (hactive : d'.engineActive = d.engineActive)
    (hseq : d'.activeSeq = d.activeSeq) : RegulatorLow d' where
  scheduled := hs
  unkeyed := by
    have hk := h.unkeyed
    simp only [Schedule.keyed, schedule] at hk ⊢
    rw [hactive, hseq]
    exact hk
  off := by rw [hreg]; exact h.off
  low := by rw [hreg]; exact h.low
  below := by rw [hreg, hseq]; exact h.below

/-- A step that only lowers the use count, to less than 0. -/
theorem RegulatorLow.lowered {d d' : Device} {n : Int} (h : RegulatorLow d)
    (hs : WellScheduled d') (hk : d'.schedule.keyed = false)
    (hreg : d'.regulator = { d.regulator with refcnt := n }) (hn : n < 0) : RegulatorLow d' where
  scheduled := hs
  unkeyed := hk
  off := by rw [hreg]; exact h.off
  low := by rw [hreg]; exact Int.le_of_lt hn
  below _ := by rw [hreg]; exact hn

theorem start_rejected {seq : TxSequence} (h : seq.totalSymbols = 0) :
    txEngineStart (some seq)
      = .act (printk "tx_engine: start failed, seq is NULL or empty\n") .done := by
  rw [txEngineStart, if_pos h]

/-- A queued work item belongs to a running sequence. -/
theorem active_of_work {d : Device} (h : WellScheduled d) (hwork : d.txWork = true) :
    d.activeSeq.isSome ∧ d.engineActive = true := by
  have hseq : d.activeSeq.isSome := by
    cases hd : d.activeSeq with
    | none => exact absurd (h.idle hd).2 (by show d.txWork ≠ false; simp [hwork])
    | some seq => rfl
  exact ⟨hseq, h.active.mpr hseq⟩

theorem step_stop (d : Device) : atomicStep engine d (.op .stop) = txEngineStop.exec d := rfl

theorem step_start (seq : Option TxSequence) (d : Device) :
    atomicStep engine d (.op (.start seq)) = (txEngineStart seq).exec d := rfl

/-- What a queued work item does to the keying and to the regulator. -/
theorem step_work {d : Device} (h : RegulatorLow d) (hwork : d.txWork = true) :
    (atomicStep engine d (.op .work)).schedule.keyed = d.nextSymbol.any (·.txOn)
      ∧ (atomicStep engine d (.op .work)).regulator
        = { d.regulator with
            refcnt := d.regulator.refcnt + if d.nextSymbol.any (·.txOn) then 1 else -1 }
      ∧ d.regulator.refcnt < 0 := by
  obtain ⟨hseq, hactive⟩ := active_of_work h.scheduled hwork
  have hbelow := h.below hseq
  rw [atomicStep, if_pos (by exact hwork)]
  exact ⟨keyed_work { d with txWork := false } hactive,
    regulator_work (d := { d with txWork := false }) hbelow hseq, hbelow⟩

/-- An unkeyed step keeps the output off and the use count low. -/
theorem regulator_step {d : Device} {e : AtomicEvent EngineOp} (h : RegulatorLow d)
    (hun : appliesUnkeyed d e) : RegulatorLow (atomicStep engine d e) := by
  have hs := scheduled_step d e h.scheduled
  have hlow := h.low
  cases e with
  | irq =>
      refine h.frame hs (regulator_txTimerExpiry d) ?_ ?_ <;>
        simp only [atomicStep, engine, txTimerExpiry] <;> split <;> rfl
  | op op =>
      cases op with
      | stop =>
          rw [step_stop] at hs ⊢
          refine h.lowered hs ?_ (regulator_stop hlow) (by omega)
          rw [schedule_stop]
          simp [Schedule.keyed]
      | start seq =>
          rw [step_start] at hs ⊢
          cases seq with
          | none => exact h.frame hs rfl rfl rfl
          | some seq =>
              by_cases hzero : seq.totalSymbols = 0
              · rw [start_rejected hzero] at hs ⊢
                exact h.frame hs rfl rfl rfl
              · have hsym := hun hzero
                refine h.lowered hs ((keyed_start hzero).trans hsym) (regulator_start hzero hlow) ?_
                rw [hsym, if_neg (by simp)]
                omega
      | work =>
          cases hwork : d.txWork with
          | false =>
              -- nothing is queued, so nothing runs
              have hsame : atomicStep engine d (.op .work) = d := by
                rw [atomicStep, if_neg (by simp [engine, hwork])]
              rw [hsame]
              exact h
          | true =>
              obtain ⟨hkeyed, hreg, hbelow⟩ := step_work h hwork
              have hnext : d.nextSymbol.any (·.txOn) = false := hun hwork
              rw [hnext, if_neg (by simp)] at hreg
              exact h.lowered hs (hkeyed.trans hnext) hreg (by omega)

/-- A keyed step leaves the output off. -/
theorem regulator_step_keyed {d : Device} {e : AtomicEvent EngineOp} (h : RegulatorLow d)
    (hkey : ¬ appliesUnkeyed d e) :
    (atomicStep engine d e).regulator.outputOn = false
      ∧ (atomicStep engine d e).schedule.keyed = true := by
  have hlow := h.low
  cases e with
  | irq => exact absurd trivial hkey
  | op op =>
      cases op with
      | stop => exact absurd trivial hkey
      | start seq =>
          cases seq with
          | none => exact absurd trivial hkey
          | some seq =>
              rw [appliesUnkeyed, Classical.not_imp, Bool.not_eq_false] at hkey
              obtain ⟨hseq, hsym⟩ := hkey
              rw [step_start, regulator_start hseq hlow, keyed_start hseq]
              exact ⟨h.off, hsym⟩
      | work =>
          rw [appliesUnkeyed, Classical.not_imp, Bool.not_eq_false] at hkey
          obtain ⟨hwork, hnext⟩ := hkey
          obtain ⟨hkeyed, hreg, _⟩ := step_work h hwork
          rw [hreg, hkeyed]
          exact ⟨h.off, hnext⟩

/-- An engine just initialised, with its regulator off and unused. -/
structure Initialised (d : Device) : Prop where
  idle : d.schedule = initSchedule
  off : d.regulator.outputOn = false
  unused : d.regulator.refcnt = 0

/--
**The regulator follows the keying, exactly as long as nothing is keyed.**

From an initialised idle engine, over every run of starts, stops, expiries and
runs of the work handler, and whatever the drivers return: the output is on
exactly while a keyed symbol is current, if and only if no keyed symbol is applied.
-/
theorem regulator_follows {d : Device} (h : Initialised d) (es : List (AtomicEvent EngineOp)) :
    Throughout (atomicStep engine) RegulatorFollows d es
      ↔ Along (atomicStep engine) appliesUnkeyed d es := by
  have hinit : RegulatorLow d := by
    have hseq : d.activeSeq = none := congrArg Schedule.activeSeq h.idle
    refine ⟨?_, by rw [h.idle]; rfl, h.off, Int.le_of_eq h.unused, by simp [hseq]⟩
    rw [WellScheduled, h.idle]
    exact scheduled_init
  -- a keyed step leaves the output off, and with it a state that breaks the property
  refine throughout_iff_along (J := RegulatorLow) (fun d e => regulator_step) (fun d hd => ?_)
    (fun d e hd hkey => ?_) hinit es
  · rw [RegulatorFollows, hd.off, hd.unkeyed]
  · obtain ⟨hoff, hk⟩ := regulator_step_keyed hd hkey
    rw [RegulatorFollows, hoff, hk]
    simp

/-- An idle device with an unused regulator. -/
def idleDevice : Device :=
  { boot (fun _ => 0) ⟨0, 0, 0, 0, 0, 0⟩ 0 [] with
    regulator := { refcnt := 0, outputOn := false, microvolt := 0 } }

/-- One keyed symbol: the stop inside the start takes the count to -1, the enable back to 0. -/
theorem regulator_follows_keyed :
    let seq : TxSequence :=
      { baseFreqHz := 10136000, symbols := [⟨0, 1000, true⟩], totalSymbols := 1
        currentIndex := 0, repeats := false, valid := by decide }
    Initialised idleDevice
      ∧ (run (atomicStep engine) idleDevice [.op (.start (some seq))]).schedule.keyed = true
      ∧ (run (atomicStep engine) idleDevice [.op (.start (some seq))]).regulator
          = { refcnt := 0, outputOn := false, microvolt := 0 }
      ∧ ¬ Throughout (atomicStep engine) RegulatorFollows idleDevice
          [.op (.start (some seq))] := by
  refine ⟨⟨rfl, rfl, rfl⟩, rfl, rfl, fun h => ?_⟩
  exact absurd (h.2.mpr rfl) (by decide)

theorem regulator_follows_unkeyed :
    let seq : TxSequence :=
      { baseFreqHz := 10136000, symbols := [⟨0, 1000, false⟩], totalSymbols := 1
        currentIndex := 0, repeats := false, valid := by decide }
    Throughout (atomicStep engine) RegulatorFollows idleDevice
        [.op (.start (some seq)), .irq, .op .work]
      ↔ Along (atomicStep engine) appliesUnkeyed idleDevice
        [.op (.start (some seq)), .irq, .op .work] :=
  regulator_follows ⟨rfl, rfl, rfl⟩ _

end Device

end MiniHF
