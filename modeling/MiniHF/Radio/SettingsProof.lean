import MiniHF.Lib.Runs
import MiniHF.Radio.SupplyProof

/-!
# What the commands do to the settings

Base frequency, clock and relays are set by one command each, and by nothing
else: not by the engine, whose statements keep them all, and not by the other
commands. `settings_dispatch` says which command sets which, and `kept_run` that
each survives every run without its command.
-/

namespace MiniHF

open Interrupts Interrupts.Code Runs

namespace Device

/-- The relay flag and the two pins. -/
structure Relays where
  txActive : Bool
  trFwd : Bool
  trBwd : Bool
deriving DecidableEq

def relays (d : Device) : Relays := ⟨d.txActive, d.trFwd, d.trBwd⟩

/-- What commands set and the engine does not touch. -/
structure Settings where
  baseFrequency : UInt64
  rtcTime : RtcTime
  relays : Relays
deriving DecidableEq

def settings (d : Device) : Settings := ⟨d.baseFrequency, d.rtcTime, d.relays⟩

/-! ## The engine leaves the settings alone -/

theorem settings_si5351aEnableOutput (output : UInt8) (enable : Bool) (d : Device) :
    (d.si5351aEnableOutput output enable).2.settings = d.settings := by
  obtain ⟨_, _, h⟩ := d.si5351aEnableOutput_touches output enable
  rw [h]
  rfl

theorem settings_regulatorEnable (d : Device) : d.regulatorEnable.2.settings = d.settings := by
  obtain ⟨_, _, h⟩ := d.regulatorEnable_touches
  rw [h]
  rfl

theorem settings_regulatorDisable (d : Device) : d.regulatorDisable.2.settings = d.settings := by
  obtain ⟨_, _, h⟩ := d.regulatorDisable_touches
  rw [h]
  rfl

theorem keeps_txOff : txOff.Keeps settings :=
  ⟨fun _ => rfl, fun d => settings_si5351aEnableOutput _ _ d, settings_regulatorDisable, trivial⟩

theorem keeps_applySymbol (sym : TxSymbol) : (applySymbol sym).Keeps settings := by
  refine ⟨fun _ => rfl, ?_⟩
  split
  · exact ⟨settings_regulatorEnable, trivial⟩
  · exact keeps_txOff

theorem keeps_stop : txEngineStop.Keeps settings :=
  ⟨fun _ => rfl, fun _ => rfl, fun _ => rfl,
    keeps_andThen keeps_txOff ⟨fun _ => rfl, fun _ => rfl, trivial⟩⟩

theorem keeps_start (seq : Option TxSequence) : (txEngineStart seq).Keeps settings := by
  cases seq with
  | none => exact ⟨fun _ => rfl, trivial⟩
  | some seq =>
      rw [txEngineStart]
      split
      · exact ⟨fun _ => rfl, trivial⟩
      · exact keeps_andThen keeps_stop ⟨fun _ => rfl, fun _ => rfl, fun _ => rfl, fun _ => rfl,
          fun _ => rfl, keeps_andThen (keeps_applySymbol _) ⟨fun _ => rfl, trivial⟩⟩

theorem keeps_nextSymbol (seq : TxSequence) : (txNextSymbol seq).Keeps settings :=
  ⟨fun _ => rfl, keeps_andThen (keeps_applySymbol _) ⟨fun _ => rfl, trivial⟩⟩

theorem keeps_work : txWorkHandler.Keeps settings := by
  intro d
  dsimp only
  cases d.activeSeq with
  | none => exact ⟨fun _ => rfl, trivial⟩
  | some seq =>
      refine ⟨fun _ => rfl, ?_⟩
      split
      · split
        · exact ⟨fun _ => rfl, fun _ => rfl, keeps_nextSymbol _⟩
        · exact ⟨fun _ => rfl, keeps_andThen keeps_txOff ⟨fun _ => rfl, fun _ => rfl, trivial⟩⟩
      · exact keeps_nextSymbol _

/-! ## Replies and driver calls -/

section Statements

variable (d : Device)

@[simp] theorem settings_sendPacket (cmdId : UInt8) (payload : List UInt8) (id : UInt16) :
    (d.sendPacket cmdId payload id).settings = d.settings := by
  unfold sendPacket
  split <;> rfl

@[simp] theorem settings_sendAck (id : UInt16) : (d.sendAck id).settings = d.settings := rfl

@[simp] theorem settings_sendNack (id : UInt16) : (d.sendNack id).settings = d.settings := rfl

@[simp] theorem settings_sendDebugMessage (message : String) :
    (d.sendDebugMessage message).settings = d.settings := settings_sendPacket ..

@[simp] theorem settings_result : d.result.2.settings = d.settings := by
  obtain ⟨_, h⟩ := d.result_touches
  rw [h]
  rfl

@[simp] theorem settings_regulatorSetVoltage (uv : Int) :
    (d.regulatorSetVoltage uv).2.settings = d.settings := by
  unfold regulatorSetVoltage
  dsimp only
  split <;> exact settings_result d

@[simp] theorem settings_regulatorSwitch (on : Bool) :
    (d.regulatorSwitch on).2.settings = d.settings := by
  cases on with
  | true => exact settings_regulatorEnable d
  | false => exact settings_regulatorDisable d

end Statements

/-! ## One command at a time -/

/-- Where a switch command puts the relays. -/
def switched (payload : List UInt8) (r : Relays) : Relays :=
  if payload.head? = some 0 then ⟨false, false, true⟩
  else if payload.head? = some 1 then ⟨true, true, false⟩
  else r

/-- The driver takes the time a 0x01 command asks for. -/
def clockSet (p : Packet) (d : Device) : Prop := 7 ≤ p.payload.length ∧ d.supply.returns 0 = 0

instance (p : Packet) (d : Device) : Decidable (clockSet p d) :=
  inferInstanceAs (Decidable (7 ≤ p.payload.length ∧ d.supply.returns 0 = 0))

theorem settings_setTime (p : Packet) (d : Device) :
    (handleRtcSetTime p.payload p.id d).settings
      = if clockSet p d then { d.settings with rtcTime := requestedTime p.payload }
        else d.settings := by
  rw [handleRtcSetTime_eq, rtcSetTime_eq]
  by_cases hshort : p.payload.length < 7
  · have hnot : ¬ clockSet p d := fun h => by
      have := h.1
      omega
    rw [if_pos hshort, if_neg hnot, settings_sendNack]
  · rw [if_neg hshort]
    by_cases hret : d.supply.returns 0 = 0
    · have hset : clockSet p d := ⟨by omega, hret⟩
      rw [if_pos hret, if_pos rfl, if_pos hset]
      rfl
    · have hnot : ¬ clockSet p d := fun h => hret h.2
      rw [if_neg hret, if_neg hret, if_neg hnot]
      rfl

theorem settings_getTime (p : Packet) (d : Device) :
    (handleRtcGetTime p.payload p.id d).settings = d.settings := by
  rw [handleRtcGetTime_eq]
  split
  · rw [settings_sendPacket, settings_result]
  · rw [settings_sendNack, settings_result]

theorem settings_setFreq (p : Packet) (d : Device) :
    (handleSetBaseFreq p.payload p.id d).settings
      = if 8 ≤ p.payload.length then
          { d.settings with baseFrequency := clampFrequency (requestedFreq p.payload) }
        else d.settings := by
  rw [handleSetBaseFreq_eq]
  by_cases hshort : p.payload.length < 8
  · rw [if_pos hshort, if_neg (by omega), settings_sendNack]
  · rw [if_neg hshort, if_pos (by omega)]
    rfl

theorem settings_setBuckBoost (p : Packet) (d : Device) :
    (handleSetBuckBoostRegulator p.payload p.id d).settings = d.settings := by
  rw [handleSetBuckBoostRegulator_eq]
  split
  · exact settings_sendNack ..
  · rw [settings_sendAck, settings_regulatorSwitch, settings_regulatorSetVoltage]

theorem settings_testSignal (p : Packet) (d : Device) :
    (handleTxTestSignal p.payload p.id d).settings = d.settings := by
  rw [handleTxTestSignal_eq]
  split
  · rw [settings_sendAck]
    exact exec_keeps (keeps_start _) d
  · split
    · exact settings_sendNack ..
    · rw [settings_sendNack, settings_sendDebugMessage]

theorem settings_trSwitch (p : Packet) (d : Device) :
    (handleTrSwitch p.payload p.id d).settings
      = { d.settings with relays := switched p.payload d.relays } := by
  rw [handleTrSwitch_eq, switched]
  split
  · rfl
  · split <;> rfl

/-- **What a command does to the settings.** -/
theorem settings_dispatch {p : Packet} (hreg : Registered p) (hreset : p.type ≠ 0xFD)
    (d : Device) :
    (d.dispatch p).settings =
      { baseFrequency :=
          if p.type = 0x03 ∧ 8 ≤ p.payload.length then clampFrequency (requestedFreq p.payload)
          else d.baseFrequency
        rtcTime := if p.type = 0x01 ∧ clockSet p d then requestedTime p.payload else d.rtcTime
        relays := if p.type = 0x08 then switched p.payload d.relays else d.relays } := by
  rcases dispatch_cases hreg hreset d with ⟨ht, h⟩ | ⟨ht, h⟩ | ⟨ht, h⟩ | ⟨ht, h⟩ | ⟨ht, h⟩ | ⟨ht, h⟩
    | ⟨ht, h⟩ | ⟨ht, h⟩ <;> rw [h] <;> simp +decide only [ht, false_and, if_false, true_and,
      if_true]
  · rw [settings_setTime]
    split <;> rfl
  · exact settings_getTime p d
  · rw [settings_setFreq]
    split <;> rfl
  · rw [handleGetBaseFreq_eq, settings_sendPacket]
    rfl
  · exact settings_setBuckBoost p d
  · exact settings_sendNack d p.id
  · exact settings_testSignal p d
  · exact settings_trSwitch p d

/-! ## One event at a time -/

/-- Timer and work handler leave the settings alone. -/
theorem settings_step (crc16Ccitt : UInt16 → List UInt8 → UInt16) (d : Device) {e : DeviceEvent}
    (he : ∀ data, e ≠ .receive data) : (deviceStep crc16Ccitt d e).settings = d.settings := by
  cases e with
  | receive data => exact absurd rfl (he data)
  | expire =>
      show d.txTimerExpiry.settings = d.settings
      unfold txTimerExpiry
      split <;> rfl
  | work =>
      rw [deviceStep, atomicStep]
      split
      · exact exec_keeps keeps_work { d with txWork := false }
      · rfl

/-! ## Runs without a command -/

/-- The event is not a command of type `t`, and not a reset. -/
def Spares (crc16Ccitt : UInt16 → List UInt8 → UInt16) (t : UInt8) : DeviceEvent → Prop
  | .receive data => ∀ p, checkPacket crc16Ccitt data = some p → p.type ≠ t ∧ p.type ≠ 0xFD
  | _ => True

/-- The setting that commands of type `t` change is as before. -/
def Kept (t : UInt8) (d d' : Device) : Prop :=
  (t = 0x01 → d'.rtcTime = d.rtcTime) ∧ (t = 0x03 → d'.baseFrequency = d.baseFrequency)

theorem kept_of_settings {t : UInt8} {d d' : Device} (h : d'.settings = d.settings) :
    Kept t d d' :=
  ⟨fun _ => congrArg Settings.rtcTime h, fun _ => congrArg Settings.baseFrequency h⟩

theorem kept_step {crc16Ccitt : UInt16 → List UInt8 → UInt16} {t : UInt8} {e : DeviceEvent}
    (h : Spares crc16Ccitt t e) (d : Device) : Kept t d (deviceStep crc16Ccitt d e) := by
  cases e with
  | receive data =>
      rw [deviceStep]
      rcases parseDispatchPacket_cases crc16Ccitt data d with
        hsame | ⟨p, hp, htype, _⟩ | ⟨p, hp, hreg, hreset, hdispatch⟩
      · exact kept_of_settings (congrArg settings hsame)
      · exact absurd htype (h p hp).2
      · rw [hdispatch]
        have hother := (h p hp).1
        have hs := settings_dispatch hreg hreset d
        refine ⟨?_, ?_⟩
        · rintro rfl
          have hrtc := congrArg Settings.rtcTime hs
          dsimp only [settings] at hrtc
          rw [hrtc, if_neg fun hc => hother hc.1]
        · rintro rfl
          have hfreq := congrArg Settings.baseFrequency hs
          dsimp only [settings] at hfreq
          rw [hfreq, if_neg fun hc => hother hc.1]
  | expire => exact kept_of_settings (settings_step crc16Ccitt d (by simp))
  | work => exact kept_of_settings (settings_step crc16Ccitt d (by simp))

/-- **A setting survives every run without its command.** -/
theorem kept_run {crc16Ccitt : UInt16 → List UInt8 → UInt16} {t : UInt8} {es : List DeviceEvent}
    (h : ∀ e ∈ es, Spares crc16Ccitt t e) (d : Device) :
    Kept t d (run (deviceStep crc16Ccitt) d es) := by
  induction es generalizing d with
  | nil => exact kept_of_settings rfl
  | cons e es ih =>
      obtain ⟨he, hes⟩ := List.forall_mem_cons.mp h
      obtain ⟨hrtc, hfreq⟩ := kept_step he d
      obtain ⟨hrtc', hfreq'⟩ := ih hes (deviceStep crc16Ccitt d e)
      exact ⟨fun ht => (hrtc' ht).trans (hrtc ht), fun ht => (hfreq' ht).trans (hfreq ht)⟩

end Device

end MiniHF
