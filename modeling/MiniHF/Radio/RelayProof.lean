import MiniHF.Protocol.PacketProof
import MiniHF.Radio.ScheduleProof
import MiniHF.Radio.SettingsProof

/-!
# Antenna relays and keying

Only `handle_tr_switch` and a reset move the relays, and only a test signal keys
the transmitter, with the relays in the transmit position when it starts. What is
left to go wrong is a switch to receive while it is keyed: `handle_tr_switch` does
not ask the engine. `receive_keying` says what a packet can do to relays and
engine; the rest follows from it.
-/

namespace MiniHF

open Interrupts Interrupts.Code Runs

namespace Device

/-- What decides whether the transmitter runs into the right relay. -/
def keying (d : Device) : Relays × Schedule := (d.relays, d.schedule)

/-- The engine leaves the relays alone. -/
theorem relays_exec {c : Code Device} (h : c.Keeps settings) (d : Device) :
    (c.exec d).relays = d.relays := congrArg Settings.relays (exec_keeps h d)

/-! ## The engine under a command -/

section Statements

variable (d : Device)

@[simp] theorem schedule_sendPacket (cmdId : UInt8) (payload : List UInt8) (id : UInt16) :
    (d.sendPacket cmdId payload id).schedule = d.schedule := by
  unfold sendPacket
  split <;> rfl

@[simp] theorem schedule_sendAck (id : UInt16) : (d.sendAck id).schedule = d.schedule := rfl

@[simp] theorem schedule_sendNack (id : UInt16) : (d.sendNack id).schedule = d.schedule := rfl

@[simp] theorem schedule_sendDebugMessage (message : String) :
    (d.sendDebugMessage message).schedule = d.schedule := schedule_sendPacket ..

@[simp] theorem schedule_result : d.result.2.schedule = d.schedule := by
  obtain ⟨_, h⟩ := d.result_touches
  rw [h]
  rfl

@[simp] theorem schedule_rtcSetTime (tm : RtcTime) :
    (d.rtcSetTime tm).2.schedule = d.schedule := by
  unfold rtcSetTime
  dsimp only
  split <;> exact schedule_result d

@[simp] theorem schedule_regulatorSetVoltage (uv : Int) :
    (d.regulatorSetVoltage uv).2.schedule = d.schedule := by
  unfold regulatorSetVoltage
  dsimp only
  split <;> exact schedule_result d

@[simp] theorem schedule_regulatorSwitch (on : Bool) :
    (d.regulatorSwitch on).2.schedule = d.schedule := by
  cases on with
  | true => exact schedule_regulatorEnable d
  | false => exact schedule_regulatorDisable d

end Statements

/-- The sequences of `handle_tx_test_signal`: one keyed symbol, once. -/
structure TestSignal (seq : TxSequence) : Prop where
  single : seq.totalSymbols = 1
  once : seq.repeats = false
  keyed : (seq.symbol 0).txOn = true

theorem testSignal (durationMs : UInt32) (baseFrequency : UInt64) :
    TestSignal (testSignalSeq durationMs baseFrequency) := ⟨rfl, rfl, rfl⟩

/-- A test signal starts in the transmit position only. -/
theorem testSignalFor_some {payload : List UInt8} {d : Device} {seq : TxSequence}
    (h : testSignalFor payload d = some seq) : TestSignal seq ∧ d.txActive = true := by
  unfold testSignalFor at h
  split at h
  · rename_i hcond
    cases h
    exact ⟨testSignal _ _, hcond.1⟩
  · cases h

/-- **Only a test signal reaches the engine.** -/
theorem schedule_dispatch {p : Packet} (hreg : Registered p) (hreset : p.type ≠ 0xFD)
    (d : Device) :
    (d.dispatch p).schedule = d.schedule
      ∨ p.type = 0x07 ∧ ∃ seq, TestSignal seq ∧ d.txActive = true
        ∧ (d.dispatch p).schedule = startSchedule seq := by
  rcases dispatch_cases hreg hreset d with ⟨ht, h⟩ | ⟨ht, h⟩ | ⟨ht, h⟩ | ⟨ht, h⟩ | ⟨ht, h⟩ | ⟨ht, h⟩
    | ⟨ht, h⟩ | ⟨ht, h⟩
  · left
    rw [h, handleRtcSetTime_eq]
    split
    · exact schedule_sendNack d p.id
    · split
      · rw [schedule_sendAck, schedule_rtcSetTime]
      · rw [schedule_sendNack, schedule_rtcSetTime]
  · left
    rw [h, handleRtcGetTime_eq]
    split
    · rw [schedule_sendPacket, schedule_result]
    · rw [schedule_sendNack, schedule_result]
  · left
    rw [h, handleSetBaseFreq_eq]
    split
    · exact schedule_sendNack d p.id
    · exact schedule_sendAck _ p.id
  · left
    rw [h, handleGetBaseFreq_eq, schedule_sendPacket]
  · left
    rw [h, handleSetBuckBoostRegulator_eq]
    split
    · exact schedule_sendNack d p.id
    · rw [schedule_sendAck, schedule_regulatorSwitch, schedule_regulatorSetVoltage]
  · left
    rw [h, handleGetBuckBoostRegulator_eq, schedule_sendNack]
  · rw [h, handleTxTestSignal_eq]
    cases hseq : testSignalFor p.payload d with
    | none =>
        left
        dsimp only
        split
        · exact schedule_sendNack d p.id
        · rw [schedule_sendNack, schedule_sendDebugMessage]
    | some seq =>
        obtain ⟨htest, htx⟩ := testSignalFor_some hseq
        have hzero : seq.totalSymbols ≠ 0 := by
          rw [htest.single]
          exact Nat.one_ne_zero
        exact Or.inr ⟨ht, seq, htest, htx, schedule_start d hzero⟩
  · left
    rw [h, handleTrSwitch_eq]
    split
    · rfl
    · split <;> rfl

/-- **What a received packet can do to relays and engine.** -/
theorem receive_keying (crc16Ccitt : UInt16 → List UInt8 → UInt16) (data : List UInt8)
    (d : Device) :
    (d.parseDispatchPacket crc16Ccitt data).keying = d.keying
      ∨ (∃ p, checkPacket crc16Ccitt data = some p ∧ p.type = 0x08 ∧ p.payload.head? = some 0
        ∧ (d.parseDispatchPacket crc16Ccitt data).keying = d.trSetRx.keying)
      ∨ (d.parseDispatchPacket crc16Ccitt data).keying = d.trSetTx.keying
      ∨ (∃ seq, TestSignal seq ∧ d.txActive = true
        ∧ (d.parseDispatchPacket crc16Ccitt data).keying = (d.relays, startSchedule seq))
      ∨ (d.parseDispatchPacket crc16Ccitt data).keying = (⟨false, false, true⟩, initSchedule) := by
  rcases parseDispatchPacket_cases crc16Ccitt data d with
    hsame | ⟨p, hp, _, hreset⟩ | ⟨p, hp, hreg, hreset, hdispatch⟩
  · exact Or.inl (congrArg keying hsame)
  · rw [hreset]
    exact Or.inr (Or.inr (Or.inr (Or.inr rfl)))
  · rw [hdispatch]
    have hrelays : (d.dispatch p).relays
        = if p.type = 0x08 then switched p.payload d.relays else d.relays :=
      congrArg Settings.relays (settings_dispatch hreg hreset d)
    rcases schedule_dispatch hreg hreset d with hs | ⟨ht, seq, htest, htx, hs⟩
    · -- the engine is as it was, the relays may be switched
      unfold keying
      rw [hs, hrelays]
      split
      · rename_i h8
        unfold switched
        split
        · rename_i hmode
          exact Or.inr (Or.inl ⟨p, hp, h8, hmode, rfl⟩)
        · split
          · exact Or.inr (Or.inr (Or.inl rfl))
          · exact Or.inl rfl
      · exact Or.inl rfl
    · -- a test signal leaves the relays alone
      have hrelays : (d.dispatch p).relays = d.relays := by
        rw [hrelays, if_neg (by rw [ht]; decide)]
      exact Or.inr (Or.inr (Or.inr (Or.inl ⟨seq, htest, htx, Prod.ext hrelays hs⟩)))

/-- A packet that switches to receive does so. -/
theorem receive_trSetRx {crc16Ccitt : UInt16 → List UInt8 → UInt16} {data : List UInt8}
    {p : Packet} (hp : checkPacket crc16Ccitt data = some p) (htype : p.type = 0x08)
    (hmode : p.payload.head? = some 0) (d : Device) :
    (d.parseDispatchPacket crc16Ccitt data).keying = d.trSetRx.keying := by
  rw [parseDispatchPacket, hp]
  dsimp only
  rw [@dispatch_of_mem 0x08 handleTrSwitch (by simp [cmdTable]) p htype, handleTrSwitch_eq,
    if_pos hmode]
  rfl

/-! ## The relays while the transmitter is keyed -/

section Device

variable (crc16Ccitt : UInt16 → List UInt8 → UInt16)

/-- While a keyed symbol is current, flag and pins are in the transmit position. -/
def KeyedInTransmit (d : Device) : Prop :=
  d.schedule.keyed = true → d.relays = ⟨true, true, false⟩

/-- The event is not a switch to receive while the transmitter is keyed. -/
def keepsTransmit (d : Device) : DeviceEvent → Prop
  | .receive data => ∀ p, checkPacket crc16Ccitt data = some p → p.type = 0x08 →
      p.payload.head? = some 0 → d.schedule.keyed = false
  | _ => True

/-- The engine is idle or plays a test signal, and the relays are where the flag says. -/
structure RelaysHeld (k : Relays × Schedule) : Prop where
  pins : k.1 = ⟨k.1.txActive, k.1.txActive, !k.1.txActive⟩
  /-- What runs is a test signal at its one symbol. -/
  single : ∀ seq, k.2.activeSeq = some seq → TestSignal seq ∧ seq.currentIndex = 0
  active : k.2.engineActive = k.2.activeSeq.isSome
  /-- It was started in the transmit position and has stayed there. -/
  held : k.2.activeSeq.isSome → k.1.txActive = true

theorem RelaysHeld.keyed {k : Relays × Schedule} (h : RelaysHeld k) :
    k.2.keyed = k.2.activeSeq.isSome := by
  rw [Schedule.keyed, h.active]
  cases hseq : k.2.activeSeq with
  | none => rfl
  | some seq =>
      obtain ⟨htest, hindex⟩ := h.single seq hseq
      simp [hindex, htest.keyed]

theorem relaysHeld_start {r : Relays} {s : Schedule} (h : RelaysHeld (r, s)) {seq : TxSequence}
    (htest : TestSignal seq) (htx : r.txActive = true) : RelaysHeld (r, startSchedule seq) where
  pins := h.pins
  single seq' hseq := by
    simp only [startSchedule, Option.some.injEq] at hseq
    subst hseq
    exact ⟨⟨htest.single, htest.once, htest.keyed⟩, rfl⟩
  active := rfl
  held _ := htx

theorem relaysHeld_expiry {r : Relays} {s : Schedule} (h : RelaysHeld (r, s)) :
    RelaysHeld (r, expirySchedule s) := by
  rw [expirySchedule]
  split
  · exact ⟨h.pins, h.single, h.active, h.held⟩
  · exact h

/-- The work handler completes a test signal. -/
theorem relaysHeld_work {r : Relays} {s : Schedule} (h : RelaysHeld (r, s)) :
    RelaysHeld (r, workSchedule { s with txWork := false }) := by
  rw [workSchedule]
  dsimp only
  cases hseq : s.activeSeq with
  | none => exact ⟨h.pins, by simp, by simp, by simp⟩
  | some seq =>
      obtain ⟨htest, _⟩ := h.single seq hseq
      have hdone : advance seq = none := by
        have hsingle := htest.single
        rw [advance, if_pos (by omega), if_neg (by simp [htest.once])]
      dsimp only
      rw [hdone]
      exact ⟨h.pins, by simp, by simp, by simp⟩

theorem relays_step {d : Device} {e : DeviceEvent} (h : RelaysHeld d.keying)
    (hkeep : keepsTransmit crc16Ccitt d e) : RelaysHeld (deviceStep crc16Ccitt d e).keying := by
  cases e with
  | receive data =>
      rw [deviceStep]
      rcases receive_keying crc16Ccitt data d with hk | ⟨p, hp, htype, hmode, hk⟩ | hk
        | ⟨seq, htest, htx, hk⟩ | hk <;> rw [hk]
      · exact h
      · -- to receive: nothing is keyed, so nothing runs
        have hidle : d.keying.2.activeSeq.isSome = false := by
          rw [← h.keyed]
          exact hkeep p hp htype hmode
        exact ⟨rfl, h.single, h.active, fun hsome => absurd hsome (by
          show ¬ d.keying.2.activeSeq.isSome = true
          rw [hidle]
          simp)⟩
      · exact ⟨rfl, h.single, h.active, fun _ => rfl⟩
      · exact relaysHeld_start h htest htx
      · exact ⟨rfl, by simp [initSchedule], rfl, by simp [initSchedule]⟩
  | expire =>
      have hk : d.txTimerExpiry.keying = (d.relays, expirySchedule d.schedule) := by
        refine Prod.ext ?_ (schedule_expiry d)
        simp only [keying, txTimerExpiry]
        split <;> rfl
      show RelaysHeld d.txTimerExpiry.keying
      rw [hk]
      exact relaysHeld_expiry h
  | work =>
      rw [deviceStep, atomicStep]
      split
      · have hk : (txWorkHandler.exec { d with txWork := false }).keying
            = (d.relays, workSchedule { d.schedule with txWork := false }) :=
          Prod.ext (relays_exec keeps_work _) (schedule_work _)
        show RelaysHeld (txWorkHandler.exec { d with txWork := false }).keying
        rw [hk]
        exact relaysHeld_work h
      · exact h

theorem relays_step_keyed {d : Device} {e : DeviceEvent}
    (hswitch : ¬ keepsTransmit crc16Ccitt d e) :
    ¬ KeyedInTransmit (deviceStep crc16Ccitt d e) := by
  cases e with
  | expire => exact absurd trivial hswitch
  | work => exact absurd trivial hswitch
  | receive data =>
      simp only [keepsTransmit, Classical.not_forall, Bool.not_eq_false] at hswitch
      obtain ⟨p, hp, htype, hmode, hkeyed⟩ := hswitch
      have hk := receive_trSetRx hp htype hmode d
      intro h
      have hsched : (d.parseDispatchPacket crc16Ccitt data).schedule = d.schedule :=
        congrArg Prod.snd hk
      have hrelays : (d.parseDispatchPacket crc16Ccitt data).relays = ⟨false, false, true⟩ :=
        congrArg Prod.fst hk
      have hbad := h (by rw [deviceStep, hsched]; exact hkeyed)
      rw [deviceStep, hrelays] at hbad
      exact absurd hbad (by decide)

/--
**The relays stay in the transmit position, exactly as long as nobody switches them.**

Over every run after boot of received packets, timer expiries and runs of the work
handler: whenever a keyed symbol is current the flag and both relay pins are in the
transmit position, if and only if no valid 0x08 packet with mode 0 is handled while
the transmitter is keyed.
-/
theorem keyed_in_transmit (si5351aRegs : UInt8 → UInt8) (rtcTime : RtcTime) (microvolt : Int)
    (results : List Int) (es : List DeviceEvent) :
    Throughout (deviceStep crc16Ccitt) KeyedInTransmit
        (boot si5351aRegs rtcTime microvolt results) es
      ↔ Along (deviceStep crc16Ccitt) (keepsTransmit crc16Ccitt)
        (boot si5351aRegs rtcTime microvolt results) es := by
  refine throughout_iff_along (J := fun d => RelaysHeld d.keying)
    (fun d e => relays_step crc16Ccitt) (fun d hd hkeyed => ?_)
    (fun d e _ => relays_step_keyed crc16Ccitt) ?_ es
  · have hsome : d.keying.2.activeSeq.isSome = true := by
      rw [← hd.keyed]
      exact hkeyed
    have htx := hd.held hsome
    have hpins := hd.pins
    rw [htx] at hpins
    exact hpins
  · exact ⟨rfl, by simp [keying, schedule, boot], rfl, by simp [keying, schedule, boot]⟩

end Device

/-- Switch to transmit, start a test signal of one second, switch to receive. -/
theorem keyed_in_transmit_switched :
    let receive := fun p => DeviceEvent.receive (packetBytes Crc16.crc16 p)
    let d := boot (fun _ => 0) ⟨0, 0, 0, 0, 0, 0⟩ 0 []
    let d' := run (deviceStep Crc16.crc16) d
      [receive { type := 0x08, id := 1, payload := [1] },
        receive { type := 0x07, id := 2, payload := [0xE8, 0x03, 0, 0] },
        receive { type := 0x08, id := 3, payload := [0] }]
    d'.schedule.keyed = true ∧ d'.relays = ⟨false, false, true⟩ ∧ ¬ KeyedInTransmit d' := by
  intro receive d d'
  have hkeyed : d'.schedule.keyed = true := by decide +kernel
  have hrelays : d'.relays = ⟨false, false, true⟩ := by decide +kernel
  refine ⟨hkeyed, hrelays, fun h => ?_⟩
  rw [KeyedInTransmit, hrelays] at h
  exact absurd (h hkeyed) (by decide)

end Device

end MiniHF
