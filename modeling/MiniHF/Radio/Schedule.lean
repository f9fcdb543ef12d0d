import MiniHF.Radio.TxEngine

/-!
# What the engine operations do to the schedule

`Schedule` is the part of the device that decides when the next symbol comes and
which it is. The drivers and the console do not touch it, so each operation comes
down to one equation on it: `schedule_stop`, `schedule_start`, `schedule_work`
and `schedule_expiry`.
-/

namespace MiniHF

open Interrupts Interrupts.Code

/-- Sequence, flag, timer, work item, and the record of what was applied. -/
structure Schedule where
  activeSeq : Option TxSequence
  engineActive : Bool
  txTimer : Option UInt32
  txWork : Bool
  started : Option TxSequence
  applied : List TxSymbol
  expiries : Nat

/-- The engine is active and its current symbol keys the transmitter. -/
def Schedule.keyed (s : Schedule) : Bool :=
  s.engineActive && s.activeSeq.any fun seq => (seq.symbol seq.currentIndex).txOn

namespace Device

def schedule (d : Device) : Schedule where
  activeSeq := d.activeSeq
  engineActive := d.engineActive
  txTimer := d.txTimer
  txWork := d.txWork
  started := d.started
  applied := d.applied
  expiries := d.expiries

/-! ## Single statements -/

section Statements

variable (d : Device)

@[simp] theorem schedule_kTimerStart (duration : UInt32) :
    (d.kTimerStart duration).schedule = { d.schedule with txTimer := some duration } := rfl

@[simp] theorem schedule_kTimerStop :
    d.kTimerStop.schedule = { d.schedule with txTimer := none, expiries := 0 } := rfl

@[simp] theorem schedule_kWorkCancel :
    d.kWorkCancel.schedule = { d.schedule with txWork := false } := rfl

@[simp] theorem schedule_setEngineActive (b : Bool) :
    (d.setEngineActive b).schedule = { d.schedule with engineActive := b } := rfl

@[simp] theorem schedule_setActiveSeq (seq : Option TxSequence) :
    (d.setActiveSeq seq).schedule = { d.schedule with activeSeq := seq } := rfl

@[simp] theorem schedule_setCurrentIndex (i : Nat) :
    (d.setCurrentIndex i).schedule
      = { d.schedule with
          activeSeq := d.schedule.activeSeq.map fun seq => { seq with currentIndex := i } } := rfl

@[simp] theorem schedule_noteStart (seq : TxSequence) :
    (d.noteStart seq).schedule = { d.schedule with started := some seq, applied := [] } := rfl

@[simp] theorem schedule_noteSymbol (sym : TxSymbol) :
    (d.noteSymbol sym).schedule
      = { d.schedule with applied := d.schedule.applied ++ [sym] } := rfl

end Statements

/-! ## Console and drivers -/

@[simp] theorem schedule_printk (text : String) (d : Device) :
    (d.printk text).schedule = d.schedule := rfl

@[simp] theorem schedule_si5351aEnableOutput (d : Device) (output : UInt8) (enable : Bool) :
    (d.si5351aEnableOutput output enable).2.schedule = d.schedule := by
  obtain ⟨_, _, h⟩ := d.si5351aEnableOutput_touches output enable
  rw [h]
  rfl

@[simp] theorem schedule_regulatorEnable (d : Device) :
    d.regulatorEnable.2.schedule = d.schedule := by
  obtain ⟨_, _, h⟩ := d.regulatorEnable_touches
  rw [h]
  rfl

@[simp] theorem schedule_regulatorDisable (d : Device) :
    d.regulatorDisable.2.schedule = d.schedule := by
  obtain ⟨_, _, h⟩ := d.regulatorDisable_touches
  rw [h]
  rfl

/-! ## The operations -/

@[simp] theorem schedule_txOff (d : Device) : (txOff.exec d).schedule = d.schedule := by
  simp [txOff]

theorem schedule_applySymbol (sym : TxSymbol) (d : Device) :
    ((applySymbol sym).exec d).schedule
      = { d.schedule with applied := d.schedule.applied ++ [sym] } := by
  rw [applySymbol, exec_act]
  split <;> simp

theorem schedule_stop (d : Device) :
    (txEngineStop.exec d).schedule
      = { d.schedule with
          activeSeq := none, engineActive := false, txTimer := none, txWork := false
          expiries := 0 } := by
  simp [txEngineStop]

/-- The schedule right after an accepted start. -/
def startSchedule (seq : TxSequence) : Schedule where
  activeSeq := some { seq with currentIndex := 0 }
  engineActive := true
  txTimer := some (seq.symbol 0).durationUs
  txWork := false
  started := some seq
  applied := [seq.symbol 0]
  expiries := 0

theorem schedule_start (d : Device) {seq : TxSequence} (h : seq.totalSymbols ≠ 0) :
    ((txEngineStart (some seq)).exec d).schedule = startSchedule seq := by
  simp [txEngineStart, if_neg h, schedule_applySymbol, schedule_stop, startSchedule]

theorem schedule_nextSymbol (seq : TxSequence) (d : Device) :
    ((txNextSymbol seq).exec d).schedule
      = { d.schedule with
          applied := d.schedule.applied ++ [seq.symbol seq.currentIndex]
          txTimer := some (seq.symbol seq.currentIndex).durationUs } := by
  simp [txNextSymbol, schedule_applySymbol]

/-- Where the sequence stands when the next symbol is due; nowhere, if it is complete. -/
def advance (seq : TxSequence) : Option TxSequence :=
  if seq.currentIndex + 1 ≥ seq.totalSymbols then
    if seq.repeats then some { seq with currentIndex := 0 } else none
  else some { seq with currentIndex := seq.currentIndex + 1 }

/-- The schedule behind a run of the work handler. -/
def workSchedule (s : Schedule) : Schedule :=
  match s.activeSeq with
  | none => { s with engineActive := false }
  | some seq =>
      match advance seq with
      | some seq' =>
          { s with
            activeSeq := some seq'
            applied := s.applied ++ [seq'.symbol seq'.currentIndex]
            txTimer := some (seq'.symbol seq'.currentIndex).durationUs }
      | none => { s with activeSeq := none, engineActive := false }

theorem schedule_work (d : Device) : (txWorkHandler.exec d).schedule = workSchedule d.schedule := by
  have hseq : d.schedule.activeSeq = d.activeSeq := rfl
  rw [txWorkHandler, exec_look, workSchedule, hseq]
  cases hd : d.activeSeq with
  | none => simp [hseq, hd]
  | some seq =>
      dsimp only
      rw [exec_act, advance]
      by_cases hlast : seq.currentIndex + 1 ≥ seq.totalSymbols
      · rw [if_pos hlast, if_pos hlast]
        cases hrep : seq.repeats with
        | true => simp [schedule_nextSymbol, hseq, hd, hrep]
        | false => simp
      · rw [if_neg hlast, if_neg hlast]
        simp [schedule_nextSymbol, hseq, hd]

/-- The schedule behind an expiry. -/
def expirySchedule (s : Schedule) : Schedule :=
  match s.txTimer with
  | some _ => { s with txTimer := none, txWork := true, expiries := s.expiries + 1 }
  | none => s

theorem schedule_expiry (d : Device) :
    d.txTimerExpiry.schedule = expirySchedule d.schedule := by
  have htimer : d.schedule.txTimer = d.txTimer := rfl
  rw [txTimerExpiry, expirySchedule, htimer]
  cases d.txTimer <;> rfl

end Device

end MiniHF
