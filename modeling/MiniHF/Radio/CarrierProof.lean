import MiniHF.Radio.RelayProof

/-!
# What becomes of the carrier

`main` enables output 0 of the clock generator, and from then on only the engine writes
to its registers. It disables the output when it stops, when a sequence is complete and
for a silent symbol; for a keyed one it switches the regulator and does not touch the
output. So the carrier is there from boot until a disabling first goes through, and
stays away until the device boots again, whether or not a symbol is keyed.
-/

namespace MiniHF

open Interrupts Interrupts.Code Runs

namespace Device

/-- The registers with another byte that says which outputs are disabled. -/
def withOutputs (regs : UInt8 → UInt8) (v : UInt8) : UInt8 → UInt8 :=
  fun r => if r = outputEnableControl then v else regs r

/-- The registers with output 0 disabled. -/
def silenced (regs : UInt8 → UInt8) : UInt8 → UInt8 :=
  withOutputs regs (regs outputEnableControl ||| 1)

/-- The next two driver calls return 0. -/
def BusWorks (d : Device) : Prop := d.supply.returns 0 = 0 ∧ d.supply.returns 1 = 0

instance (d : Device) : Decidable d.BusWorks :=
  inferInstanceAs (Decidable (d.supply.returns 0 = 0 ∧ d.supply.returns 1 = 0))

/-- What a run of `tx_off` leaves of the registers. -/
def afterTxOff (d : Device) : UInt8 → UInt8 :=
  if d.BusWorks then silenced d.si5351aRegs else d.si5351aRegs

/-! ## Statements -/

section Statements

variable (d : Device)

theorem regs_enableOutput :
    (d.si5351aEnableOutput txClkOutput false).2.si5351aRegs = d.afterTxOff := by
  rw [si5351aEnableOutput, if_neg (by decide), afterTxOff]
  dsimp only
  rw [si5351aReadReg_eq]
  by_cases hread : d.supply.returns 0 = 0
  · have hskip : Supply.returns ⟨d.regulator, d.results.drop 1⟩ 0 = d.supply.returns 1 :=
      d.supply.returns_skip 1 0
    rw [if_pos hread, if_neg (by simp), si5351aWriteReg, result_eq]
    dsimp only [supply]
    rw [hskip]
    by_cases hwrite : d.supply.returns 1 = 0
    · have hbus : d.BusWorks := ⟨hread, hwrite⟩
      rw [if_neg (fun h => h hwrite), if_pos hbus]
      rfl
    · have hbus : ¬ d.BusWorks := fun h => hwrite h.2
      rw [if_pos hwrite, if_neg hbus]
  · have hbus : ¬ d.BusWorks := fun h => hread h.1
    rw [if_neg hread, if_pos hread, if_neg hbus]

@[simp] theorem regs_printk (text : String) : (d.printk text).si5351aRegs = d.si5351aRegs := rfl

@[simp] theorem regs_kTimerStart (duration : UInt32) :
    (d.kTimerStart duration).si5351aRegs = d.si5351aRegs := rfl

@[simp] theorem regs_setEngineActive (b : Bool) :
    (d.setEngineActive b).si5351aRegs = d.si5351aRegs := rfl

@[simp] theorem regs_setActiveSeq (seq : Option TxSequence) :
    (d.setActiveSeq seq).si5351aRegs = d.si5351aRegs := rfl

@[simp] theorem regs_setCurrentIndex (i : Nat) :
    (d.setCurrentIndex i).si5351aRegs = d.si5351aRegs := rfl

@[simp] theorem regs_noteStart (seq : TxSequence) :
    (d.noteStart seq).si5351aRegs = d.si5351aRegs := rfl

theorem regs_regulatorEnable : d.regulatorEnable.2.si5351aRegs = d.si5351aRegs := by
  obtain ⟨_, _, h⟩ := d.regulatorEnable_touches
  rw [h]

theorem regs_regulatorDisable : d.regulatorDisable.2.si5351aRegs = d.si5351aRegs := by
  obtain ⟨_, _, h⟩ := d.regulatorDisable_touches
  rw [h]

theorem regs_regulatorSwitch (on : Bool) :
    (d.regulatorSwitch on).2.si5351aRegs = d.si5351aRegs := by
  cases on with
  | true => exact d.regs_regulatorEnable
  | false => exact d.regs_regulatorDisable

theorem regs_regulatorSetVoltage (uv : Int) :
    (d.regulatorSetVoltage uv).2.si5351aRegs = d.si5351aRegs := by
  rw [regulatorSetVoltage, result_eq]
  dsimp only
  split <;> rfl

theorem regs_rtcSetTime (tm : RtcTime) :
    (d.rtcSetTime tm).2.si5351aRegs = d.si5351aRegs := by
  rw [rtcSetTime_eq]
  split <;> rfl

theorem regs_sendPacket (cmdId : UInt8) (payload : List UInt8) (id : UInt16) :
    (d.sendPacket cmdId payload id).si5351aRegs = d.si5351aRegs := by
  unfold sendPacket
  split <;> rfl

end Statements

/-! ## Operations of the engine -/

theorem regs_txOff (d : Device) : (txOff.exec d).si5351aRegs = d.afterTxOff := by
  show ((d.printk "tx_engine: TX off\n").si5351aEnableOutput txClkOutput
    false).2.regulatorDisable.2.si5351aRegs = _
  rw [regs_regulatorDisable, regs_enableOutput]
  rfl

theorem regs_stop (d : Device) : (txEngineStop.exec d).si5351aRegs = d.afterTxOff := by
  rw [txEngineStop, exec_act, exec_act, exec_act, exec_andThen, exec_act, exec_act, exec_done,
    regs_setActiveSeq, regs_setEngineActive, regs_txOff]
  rfl

theorem regs_applySymbol (sym : TxSymbol) (d : Device) :
    ((applySymbol sym).exec d).si5351aRegs
      = if sym.txOn then d.si5351aRegs else d.afterTxOff := by
  rw [applySymbol, exec_act]
  split
  · exact regs_regulatorEnable _
  · exact regs_txOff _

/-- A start with a keyed first symbol disables the output once and leaves it so. -/
theorem regs_start (d : Device) {seq : TxSequence} (hseq : seq.totalSymbols ≠ 0)
    (hkeyed : (seq.symbol 0).txOn = true) :
    ((txEngineStart (some seq)).exec d).si5351aRegs = d.afterTxOff := by
  simp only [txEngineStart, if_neg hseq, exec_act, exec_andThen, exec_done]
  rw [regs_kTimerStart, regs_applySymbol, if_pos hkeyed, regs_printk, regs_setEngineActive,
    regs_setCurrentIndex, regs_noteStart, regs_setActiveSeq, regs_stop]

/-- The work handler switches off: at the end of a sequence, and for a silent symbol. -/
def switchesOff (activeSeq : Option TxSequence) : Bool :=
  activeSeq.any fun seq => (advance seq).all fun seq' => !(seq'.symbol seq'.currentIndex).txOn

theorem regs_nextSymbol (seq : TxSequence) (d : Device) :
    ((txNextSymbol seq).exec d).si5351aRegs
      = if !(seq.symbol seq.currentIndex).txOn then d.afterTxOff else d.si5351aRegs := by
  simp only [txNextSymbol, exec_act, exec_andThen, exec_done]
  rw [regs_kTimerStart, regs_applySymbol]
  cases (seq.symbol seq.currentIndex).txOn <;> rfl

theorem regs_work (d : Device) :
    (txWorkHandler.exec d).si5351aRegs
      = if switchesOff d.activeSeq then d.afterTxOff else d.si5351aRegs := by
  rw [txWorkHandler, exec_look]
  cases hd : d.activeSeq with
  | none => rfl
  | some seq =>
      rw [switchesOff, Option.any_some]
      dsimp only
      rw [exec_act]
      by_cases hlast : seq.currentIndex + 1 ≥ seq.totalSymbols
      · rw [if_pos hlast]
        cases hrep : seq.repeats with
        | true =>
            have hadvance : advance seq = some { seq with currentIndex := 0 } := by
              rw [advance, if_pos hlast, if_pos hrep]
            rw [if_pos rfl, exec_act, exec_act, regs_nextSymbol, hadvance, Option.all_some]
            rfl
        | false =>
            have hadvance : advance seq = none := by
              rw [advance, if_pos hlast, hrep, if_neg Bool.false_ne_true]
            rw [if_neg Bool.false_ne_true, exec_act, exec_andThen, exec_act, exec_act, exec_done,
              regs_setActiveSeq, regs_setEngineActive, regs_txOff, hadvance, Option.all_none]
            rfl
      · have hadvance : advance seq = some { seq with currentIndex := seq.currentIndex + 1 } := by
          rw [advance, if_neg hlast]
        rw [if_neg hlast, regs_nextSymbol, hadvance, Option.all_some]
        rfl

/-! ## Events -/

/-- The event switches the transmitter off, and both transfers of that go through. -/
def Silences (crc16Ccitt : UInt16 → List UInt8 → UInt16) (d : Device) : DeviceEvent → Prop
  | .receive data => ∃ p seq, checkPacket crc16Ccitt data = some p ∧ p.type = 0x07 ∧
      testSignalFor p.payload d = some seq ∧ d.BusWorks
  | .expire => False
  | .work => d.txWork = true ∧ switchesOff d.activeSeq = true ∧ d.BusWorks

/-- The event is a reset. -/
def Resets (crc16Ccitt : UInt16 → List UInt8 → UInt16) : DeviceEvent → Prop
  | .receive data => ∃ p, checkPacket crc16Ccitt data = some p ∧ p.type = 0xFD
  | _ => False

/-- **Only a test signal reaches the registers.** -/
theorem regs_dispatch {p : Packet} (hreg : Registered p) (hreset : p.type ≠ 0xFD) (d : Device) :
    (d.dispatch p).si5351aRegs
      = if p.type = 0x07 ∧ (testSignalFor p.payload d).isSome then d.afterTxOff
        else d.si5351aRegs := by
  rcases dispatch_cases hreg hreset d with ⟨ht, h⟩ | ⟨ht, h⟩ | ⟨ht, h⟩ | ⟨ht, h⟩ | ⟨ht, h⟩ | ⟨ht, h⟩
    | ⟨ht, h⟩ | ⟨ht, h⟩
  case inr.inr.inr.inr.inr.inr.inl =>
    rw [h, handleTxTestSignal_eq, ht]
    cases hseq : testSignalFor p.payload d with
    | none =>
        show (if d.txActive then d.sendNack p.id
          else (d.sendDebugMessage notActiveText).sendNack p.id).si5351aRegs = d.si5351aRegs
        split
        · rfl
        · show (d.sendDebugMessage notActiveText).si5351aRegs = _
          exact regs_sendPacket ..
    | some seq =>
        obtain ⟨htest, -⟩ := testSignalFor_some hseq
        have hzero : seq.totalSymbols ≠ 0 := by
          rw [htest.single]
          exact Nat.one_ne_zero
        exact regs_start d hzero htest.keyed
  all_goals
    rw [if_neg (fun hseq => absurd (ht.symm.trans hseq.1) (by decide)), h]
  · rw [handleRtcSetTime_eq]
    split
    · rfl
    · split <;> exact regs_rtcSetTime ..
  · rw [handleRtcGetTime_eq, result_eq]
    split
    · exact regs_sendPacket ..
    · rfl
  · rw [handleSetBaseFreq_eq]
    split <;> rfl
  · rw [handleGetBaseFreq_eq]
    exact regs_sendPacket ..
  · rw [handleSetBuckBoostRegulator_eq]
    split
    · rfl
    · next state rest hpayload =>
      show ((d.regulatorSetVoltage (requestedMicrovolt state)).2.regulatorSwitch
        (requestedOn state)).2.si5351aRegs = _
      rw [regs_regulatorSwitch, regs_regulatorSetVoltage]
  · rfl
  · rw [handleTrSwitch_eq]
    split
    · rfl
    · split <;> rfl

/-- **What an event does to the registers.** -/
theorem regs_step (crc16Ccitt : UInt16 → List UInt8 → UInt16) (d : Device) (e : DeviceEvent) :
    (Resets crc16Ccitt e ∧ ¬ Silences crc16Ccitt d e
        ∧ (deviceStep crc16Ccitt d e).si5351aRegs = withOutputs d.si5351aRegs 0xFE)
      ∨ (¬ Resets crc16Ccitt e ∧ Silences crc16Ccitt d e
        ∧ (deviceStep crc16Ccitt d e).si5351aRegs = silenced d.si5351aRegs)
      ∨ (¬ Resets crc16Ccitt e ∧ ¬ Silences crc16Ccitt d e
        ∧ (deviceStep crc16Ccitt d e).si5351aRegs = d.si5351aRegs) := by
  cases e with
  | expire =>
      refine .inr (.inr ⟨id, id, ?_⟩)
      show d.txTimerExpiry.si5351aRegs = _
      unfold txTimerExpiry
      split <;> rfl
  | work =>
      by_cases hwork : d.txWork = true
      · have hstep : (deviceStep crc16Ccitt d .work).si5351aRegs
            = if switchesOff d.activeSeq then d.afterTxOff else d.si5351aRegs := by
          have henabled : engine.enabled .work d = true := hwork
          rw [deviceStep, atomicStep, if_pos henabled]
          exact regs_work { d with txWork := false }
        rw [hstep]
        by_cases hoff : switchesOff d.activeSeq = true ∧ d.BusWorks
        · refine .inr (.inl ⟨id, ⟨hwork, hoff⟩, ?_⟩)
          rw [if_pos hoff.1, afterTxOff, if_pos hoff.2]
        · refine .inr (.inr ⟨id, fun h => hoff h.2, ?_⟩)
          split
          · next hlast => exact if_neg fun hbus => hoff ⟨hlast, hbus⟩
          · rfl
      · refine .inr (.inr ⟨id, fun h => hwork h.1, ?_⟩)
        have henabled : ¬ engine.enabled .work d = true := hwork
        rw [deviceStep, atomicStep, if_neg henabled]
  | receive data =>
      rw [deviceStep, parseDispatchPacket]
      cases hp : checkPacket crc16Ccitt data with
      | none =>
          refine .inr (.inr ⟨?_, ?_, rfl⟩)
          · rintro ⟨q, hq, -⟩
            rw [hp] at hq
            cases hq
          · rintro ⟨q, seq, hq, -⟩
            rw [hp] at hq
            cases hq
      | some p =>
          have hresets : Resets crc16Ccitt (.receive data) ↔ p.type = 0xFD := by
            constructor
            · rintro ⟨q, hq, htype⟩
              rw [hp] at hq
              cases hq
              exact htype
            · exact fun htype => ⟨p, hp, htype⟩
          have hsilences : Silences crc16Ccitt d (.receive data) ↔
              (p.type = 0x07 ∧ (testSignalFor p.payload d).isSome) ∧ d.BusWorks := by
            constructor
            · rintro ⟨q, seq, hq, htype, hseq, hbus⟩
              rw [hp] at hq
              cases hq
              exact ⟨⟨htype, by rw [hseq]; rfl⟩, hbus⟩
            · rintro ⟨⟨htype, hsome⟩, hbus⟩
              obtain ⟨seq, hseq⟩ := Option.isSome_iff_exists.mp hsome
              exact ⟨p, seq, hp, htype, hseq, hbus⟩
          rw [hresets, hsilences]
          by_cases htype : p.type = 0xFD
          · refine .inl ⟨htype, fun h => ?_, ?_⟩
            · exact absurd (htype.symm.trans h.1.1) (by decide)
            · show (d.dispatch p).si5351aRegs = _
              rw [dispatch_reset htype d]
              rfl
          · refine .inr ?_
            have hregs : (d.dispatch p).si5351aRegs
                = if p.type = 0x07 ∧ (testSignalFor p.payload d).isSome then d.afterTxOff
                  else d.si5351aRegs := by
              by_cases hreg : Registered p
              · exact regs_dispatch hreg htype d
              · have hother : ¬ (p.type = 0x07 ∧ (testSignalFor p.payload d).isSome) := by
                  rintro ⟨hsignal, -⟩
                  exact hreg (by rw [Registered, hsignal]; decide)
                rw [if_neg hother, dispatch_unregistered hreg]
            dsimp only
            rw [hregs]
            by_cases hoff : (p.type = 0x07 ∧ (testSignalFor p.payload d).isSome) ∧ d.BusWorks
            · refine .inl ⟨htype, hoff, ?_⟩
              rw [if_pos hoff.1, afterTxOff, if_pos hoff.2]
            · refine .inr ⟨htype, hoff, ?_⟩
              split
              · next hsignal => exact if_neg fun hbus => hoff ⟨hsignal, hbus⟩
              · rfl

/-! ## Runs -/

/-- Some event of the run switched the transmitter off, and the device has not booted since. -/
def Silenced (crc16Ccitt : UInt16 → List UInt8 → UInt16) : Device → List DeviceEvent → Prop :=
  SetLast (deviceStep crc16Ccitt) (Silences crc16Ccitt) (Resets crc16Ccitt)

/-- The clock generator is as at boot, or with output 0 disabled. -/
def OutputsKnown (regs : UInt8 → UInt8) (d : Device) : Prop :=
  d.si5351aRegs = withOutputs regs 0xFE ∨ d.si5351aRegs = withOutputs regs 0xFF

theorem withOutputs_twice (regs : UInt8 → UInt8) (v w : UInt8) :
    withOutputs (withOutputs regs v) w = withOutputs regs w := by
  funext r
  unfold withOutputs
  split <;> rfl

theorem withOutputs_inj {regs : UInt8 → UInt8} {v w : UInt8}
    (h : withOutputs regs v = withOutputs regs w) : v = w := congrFun h outputEnableControl

/-- One event: output 0 is disabled by switching off and enabled by booting. -/
theorem outputs_step (crc16Ccitt : UInt16 → List UInt8 → UInt16) {regs : UInt8 → UInt8} {d : Device}
    (h : OutputsKnown regs d) (e : DeviceEvent) :
    OutputsKnown regs (deviceStep crc16Ccitt d e) ∧
      ((deviceStep crc16Ccitt d e).si5351aRegs = withOutputs regs 0xFF ↔
        (d.si5351aRegs = withOutputs regs 0xFF ∧ ¬ Resets crc16Ccitt e)
          ∨ Silences crc16Ccitt d e) := by
  have hsilenced : silenced d.si5351aRegs = withOutputs regs 0xFF := by
    have hset : (0xFE ||| 1 : UInt8) = 0xFF ∧ (0xFF ||| 1 : UInt8) = 0xFF := by decide
    rcases h with h | h <;> rw [h, silenced, withOutputs_twice]
    · exact congrArg (withOutputs regs) hset.1
    · exact congrArg (withOutputs regs) hset.2
  rcases regs_step crc16Ccitt d e with ⟨hreset, hkeep, hregs⟩ | ⟨hreset, hoff, hregs⟩
    | ⟨hreset, hkeep, hregs⟩
  · have hboot : withOutputs d.si5351aRegs 0xFE = withOutputs regs 0xFE := by
      rcases h with h | h <;> rw [h, withOutputs_twice]
    rw [OutputsKnown, hregs, hboot]
    refine ⟨.inl rfl, iff_of_false (fun heq => absurd (withOutputs_inj heq) (by decide)) ?_⟩
    rintro (⟨-, hnot⟩ | hoff)
    · exact hnot hreset
    · exact hkeep hoff
  · rw [OutputsKnown, hregs, hsilenced]
    exact ⟨.inr rfl, iff_of_true rfl (.inr hoff)⟩
  · rw [OutputsKnown, hregs]
    exact ⟨h, ⟨fun heq => .inl ⟨heq, hreset⟩, fun hor => (hor.resolve_right hkeep).1⟩⟩

/--
**The carrier goes and does not come back.**

In every run after boot output 0 of the clock generator is disabled in the end if and
only if the transmitter was switched off since the last boot with both transfers going
through, be it for a start, at the end of a sequence or for a silent symbol. Nothing
else is ever written to the clock generator, so no command and no keyed symbol enables
an output. A reset is taken to get to the loop of `main` again, which can also give up,
and a write that fails to have brought nothing.
-/
theorem carrier_off_iff (crc16Ccitt : UInt16 → List UInt8 → UInt16) (si5351aRegs : UInt8 → UInt8)
    (rtcTime : RtcTime) (microvolt : Int) (results : List Int) (es : List DeviceEvent) :
    let d := boot si5351aRegs rtcTime microvolt results
    let d' := run (deviceStep crc16Ccitt) d es
    OutputsKnown si5351aRegs d' ∧
      (d'.si5351aRegs = withOutputs si5351aRegs 0xFF ↔ Silenced crc16Ccitt d es) := by
  intro d d'
  have hboot : OutputsKnown si5351aRegs d := .inl rfl
  have hknown := fun d e (h : OutputsKnown si5351aRegs d) => (outputs_step crc16Ccitt h e).1
  have hflag := fun d e (h : OutputsKnown si5351aRegs d) => (outputs_step crc16Ccitt h e).2
  have hon : d.si5351aRegs ≠ withOutputs si5351aRegs 0xFF :=
    fun heq => absurd (withOutputs_inj heq) (by decide)
  refine ⟨run_invariant hknown hboot es, ?_⟩
  exact (@run_latch_iff _ _ _ _ (fun d => d.si5351aRegs = withOutputs si5351aRegs 0xFF) _ _
    hknown hflag d hboot es).trans (or_iff_right fun h => hon h.1)

end Device

end MiniHF
