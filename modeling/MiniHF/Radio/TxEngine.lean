import MiniHF.Lib.Interrupts
import MiniHF.Radio.Device

/-!
# `tx_engine.c`

The engine applies the symbols of a sequence one after another. A one-shot timer
runs as long as a symbol lasts; its expiry queues the work item whose handler
applies the next.

The three operations run on one work queue, one at a time, but the timer may
expire between any two of their statements, so they are `Code`: a list of
statements in the order of the source. A sequence is kept by value. Only the engine
writes through `active_seq`; `handle_tx_test_signal` fills its static sequence in
right before a start, which drops the old one first. So the value is what the
pointer shows.
-/

namespace MiniHF

open Interrupts Interrupts.Code

namespace Device

/-- `%d` of a flag. -/
def fmtFlag (b : Bool) : String := if b then "1" else "0"

/-- `%.2f`: two decimals, a tie to the even digit. -/
def fmtFixed2 (q : Rat) : String :=
  let num := q.num.natAbs * 100
  let low := num / q.den
  let twice := 2 * (num % q.den)
  let hundredths :=
    if twice > q.den ∨ (twice = q.den ∧ low % 2 = 1) then low + 1 else low
  let digits := if hundredths % 100 < 10 then "0" else ""
  (if q.num < 0 then "-" else "") ++ toString (hundredths / 100) ++ "." ++ digits
    ++ toString (hundredths % 100)

/-- `engine_active = b`. -/
def setEngineActive (b : Bool) (d : Device) : Device := { d with engineActive := b }

/-- `active_seq = seq`. -/
def setActiveSeq (seq : Option TxSequence) (d : Device) : Device := { d with activeSeq := seq }

/-- `active_seq->current_index = i`. -/
def setCurrentIndex (i : Nat) (d : Device) : Device :=
  { d with activeSeq := d.activeSeq.map fun seq => { seq with currentIndex := i } }

/-- Record an accepted start. -/
def noteStart (seq : TxSequence) (d : Device) : Device :=
  { d with started := some seq, applied := [] }

/-- Record a symbol. -/
def noteSymbol (sym : TxSymbol) (d : Device) : Device := { d with applied := d.applied ++ [sym] }

/-- The armed timer expires: `tx_timer_expiry` submits the work item. -/
def txTimerExpiry (d : Device) : Device :=
  match d.txTimer with
  | some _ => kWorkSubmit { d with txTimer := none, expiries := d.expiries + 1 }
  | none => d

/-- `TX_CLK_OUTPUT`. -/
def txClkOutput : UInt8 := 0

/-- `tx_off`. -/
def txOff : Code Device :=
  .act (printk "tx_engine: TX off\n") <|
  .act (fun d => (d.si5351aEnableOutput txClkOutput false).2) <|
  .act (fun d => d.regulatorDisable.2) .done

/-- `apply_symbol`. -/
def applySymbol (sym : TxSymbol) : Code Device :=
  .act (noteSymbol sym) <|
  if sym.txOn then .act (fun d => d.regulatorEnable.2) .done else txOff

/-- `tx_engine_stop`. -/
def txEngineStop : Code Device :=
  .act (printk "tx_engine: stopping\n") <|
  .act kTimerStop <|
  .act kWorkCancel <|
  txOff.andThen <|
  .act (setEngineActive false) <|
  .act (setActiveSeq none) .done

/-- The `printk` of `tx_engine_start`. -/
def startedText (seq : TxSequence) : String :=
  "tx_engine: started, base_freq=" ++ toString seq.baseFreqHz ++ " Hz, "
    ++ toString seq.totalSymbols ++ " symbols, repeat=" ++ fmtFlag seq.repeats ++ "\n"

/-- `tx_engine_start`. -/
def txEngineStart (seq : Option TxSequence) : Code Device :=
  let failed : Code Device := .act (printk "tx_engine: start failed, seq is NULL or empty\n") .done
  match seq with
  | none => failed
  | some seq =>
      if seq.totalSymbols = 0 then failed
      else
        txEngineStop.andThen <|
        .act (setActiveSeq (some seq)) <|
        .act (noteStart seq) <|
        .act (setCurrentIndex 0) <|
        .act (setEngineActive true) <|
        .act (printk (startedText seq)) <|
        (applySymbol (seq.symbol 0)).andThen <|
        .act (kTimerStart (seq.symbol 0).durationUs) .done

/-- The `printk` of `tx_work_handler` before a symbol. -/
def symbolText (seq : TxSequence) : String :=
  let sym := seq.symbol seq.currentIndex
  "tx_engine: symbol " ++ toString seq.currentIndex ++ "/" ++ toString seq.totalSymbols
    ++ ", tx_on=" ++ fmtFlag sym.txOn ++ ", offset=" ++ fmtFixed2 sym.freqOffsetHz
    ++ " Hz, dur=" ++ toString sym.durationUs ++ " us\n"

/-- The end of `tx_work_handler`: the symbol at the new index. -/
def txNextSymbol (seq : TxSequence) : Code Device :=
  let sym := seq.symbol seq.currentIndex
  .act (printk (symbolText seq)) <|
  (applySymbol sym).andThen <|
  .act (kTimerStart sym.durationUs) .done

/-- `tx_work_handler`. -/
def txWorkHandler : Code Device :=
  .look fun d =>
    match d.activeSeq with
    | none => .act (setEngineActive false) .done
    | some seq =>
        let index := seq.currentIndex + 1
        .act (setCurrentIndex index) <|
        if index ≥ seq.totalSymbols then
          if seq.repeats then
            .act (printk "tx_engine: sequence repeating\n") <|
            .act (setCurrentIndex 0) <|
            txNextSymbol { seq with currentIndex := 0 }
          else
            .act (printk "tx_engine: sequence complete\n") <|
            txOff.andThen <|
            .act (setEngineActive false) <|
            .act (setActiveSeq none) .done
        else
          txNextSymbol { seq with currentIndex := index }

end Device

/-- The operations of the engine. -/
inductive EngineOp where
  /-- `tx_engine_start`, with NULL or a sequence. -/
  | start (seq : Option TxSequence)
  /-- `tx_engine_stop`. -/
  | stop
  /-- The work queue runs `tx_work_handler`. -/
  | work

open Device in
/-- The engine as a system of operations, interrupted by its timer. -/
def engine : System Device EngineOp where
  code
    | .start seq => txEngineStart seq
    | .stop => txEngineStop
    | .work => txWorkHandler
  enabled
    | .work, d => d.txWork
    | _, _ => true
  -- an item is no longer queued when its handler begins
  entry
    | .work, d => { d with txWork := false }
    | _, d => d
  irq := txTimerExpiry
  irq_irq d := by
    cases h : d.txTimer <;> simp [txTimerExpiry, h, kWorkSubmit]

end MiniHF
