import MiniHF.Radio.RelayProof
import MiniHF.Radio.ReplyProof
import MiniHF.Radio.SupplyProof

/-!
# What an ACK to a setting command is worth

`Truthful` is what the host takes a reply to mean: after an ACK every driver call
has succeeded and the setting is in force, after a NACK nothing has changed. The
handlers of the regulator and of the test signal throw the return values of their
driver calls away, so an ACK is true only where `Obeyed` says so, by what the
drivers are going to return and by the use count the regulator has.
-/

namespace MiniHF

open Interrupts Interrupts.Code

namespace Device

/-- The types of the setting commands: time, frequency, regulator, test signal, relays. -/
def settingTypes : List UInt8 := [0x01, 0x03, 0x05, 0x07, 0x08]

/-- What the driver calls made between two states returned. -/
def resultsSince (d d' : Device) : List Int :=
  d.results.take (d.results.length - d'.results.length)

/-- The engine plays a test signal of this duration, with its timer armed. What the clock
generator puts out is not asked here. -/
structure Transmits (durationMs : UInt32) (d : Device) : Prop where
  running : d.engineActive = true
  keyed : ∃ seq, d.activeSeq = some seq ∧ TestSignal seq ∧ seq.currentIndex = 0
  timed : ∃ us, d.txTimer = some us ∧ us.toNat = durationMs.toNat * 1000
  /-- The power amplifier has its supply. -/
  powered : d.regulator.outputOn = true

/-- What a setting command asks for is in force. -/
structure InForce (p : Packet) (d : Device) : Prop where
  time : p.type = 0x01 → d.rtcTime = requestedTime p.payload
  /-- The frequency asked for, or the nearest one in the band. -/
  freq : p.type = 0x03 → d.baseFrequency.toNat
    = max (10100000 * 100) (min (10150000 * 100) (requestedFreq p.payload).toNat)
  supply : p.type = 0x05 → ∀ state rest, p.payload = state :: rest →
    d.regulator.outputOn = requestedOn state
      ∧ d.regulator.microvolt = requestedMicrovolt state
  signal : p.type = 0x07 → Transmits (requestedDuration p.payload) d
  relays : p.type = 0x08 →
    d.relays = if p.payload.head? = some 1 then ⟨true, true, false⟩ else ⟨false, false, true⟩

/-- Frequency, relays, engine and regulator are as before. -/
structure Unchanged (d d' : Device) : Prop where
  freq : d'.baseFrequency = d.baseFrequency
  relays : d'.relays = d.relays
  engine : d'.schedule = d.schedule
  regulator : d'.regulator = d.regulator

/-- The reply to a setting command tells the truth. -/
structure Truthful (p : Packet) (d d' : Device) : Prop where
  ack : Replied 0xFF d d' → (∀ ret ∈ resultsSince d d', ret = 0) ∧ InForce p d'
  nack : Replied 0xFE d d' → Unchanged d d'

/-! ## Where the reply will be true -/

/-- The drivers, the regulator and the values asked for allow what is asked for. -/
structure Obeyed (p : Packet) (d : Device) : Prop where
  /-- The driver sets the voltage, and the switch is obeyed. -/
  supply : p.type = 0x05 → ∀ state rest, p.payload = state :: rest →
    d.supply.returns 0 = 0 ∧ (d.supply.skip 1).obeys (requestedOn state)
  /-- The duration fits its microseconds, and clock generator and regulator do what they are told. -/
  signal : p.type = 0x07 → ∀ seq, testSignalFor p.payload d = some seq →
    (requestedDuration p.payload).toNat * 1000 < 4294967296
      ∧ d.supply.returns 0 = 0 ∧ d.supply.returns 1 = 0 ∧ (d.supply.skip 2).cycles

/-! ## Replies -/

theorem truthful_sendAck {p : Packet} {d d₁ : Device} {before : List Output}
    (hout : d₁.out = d.out ++ before) (hbefore : replies before = []) :
    Truthful p d (d₁.sendAck p.id) ↔ (∀ ret ∈ resultsSince d d₁, ret = 0) ∧ InForce p d₁ := by
  have hout' : (d₁.sendAck p.id).out
      = d.out ++ (before ++ [.packet { type := 0xFF, id := p.id, payload := [] }]) := by
    rw [out_sendAck, hout, List.append_assoc]
  have hack : Replied 0xFF d (d₁.sendAck p.id) := (replied_iff hout' hbefore (by simp)).mpr rfl
  constructor
  · intro h
    obtain ⟨hres, hin⟩ := h.ack hack
    exact ⟨hres, hin.time, hin.freq, hin.supply,
      fun ht => ⟨(hin.signal ht).running, (hin.signal ht).keyed, (hin.signal ht).timed,
        (hin.signal ht).powered⟩, hin.relays⟩
  · rintro ⟨hres, hin⟩
    refine ⟨fun _ => ⟨hres, hin.time, hin.freq, hin.supply,
      fun ht => ⟨(hin.signal ht).running, (hin.signal ht).keyed, (hin.signal ht).timed,
        (hin.signal ht).powered⟩, hin.relays⟩, fun hnack => ?_⟩
    exact absurd ((replied_iff hout' hbefore (by simp)).mp hnack) (by simp)

theorem truthful_quiet {p : Packet} {d d₁ : Device} (hout : d₁.out = d.out) :
    Truthful p d (d₁.sendAck p.id) ↔ (∀ ret ∈ resultsSince d d₁, ret = 0) ∧ InForce p d₁ :=
  truthful_sendAck (by rw [hout, List.append_nil]) rfl

theorem truthful_sendNack {p : Packet} {d d₁ : Device} {before : List Output}
    (hout : d₁.out = d.out ++ before) (hbefore : replies before = []) (h : Unchanged d d₁) :
    Truthful p d (d₁.sendNack p.id) := by
  have hout' : (d₁.sendNack p.id).out
      = d.out ++ (before ++ [.packet { type := 0xFE, id := p.id, payload := [] }]) := by
    rw [out_sendNack, hout, List.append_assoc]
  refine ⟨fun hack => ?_, fun _ => ⟨h.freq, h.relays, h.engine, h.regulator⟩⟩
  exact absurd ((replied_iff hout' hbefore (by simp)).mp hack) (by simp)

theorem truthful_refused (p : Packet) (d : Device) : Truthful p d (d.sendNack p.id) :=
  truthful_sendNack (List.append_nil _).symm rfl ⟨rfl, rfl, rfl, rfl⟩

/-- The calls made used up the first `k` results. -/
theorem resultsSince_drop {d d' : Device} {k : Nat} (h : d'.results = d.results.drop k) :
    (∀ ret ∈ resultsSince d d', ret = 0) ↔ ∀ j < k, d.supply.returns j = 0 := by
  have htake : resultsSince d d' = d.results.take k := by
    rw [resultsSince, h, List.length_drop]
    rcases Nat.le_total k d.results.length with hle | hle
    · rw [show d.results.length - (d.results.length - k) = k by omega]
    · rw [List.take_of_length_le hle, List.take_of_length_le (by omega)]
  rw [htake]
  simp only [List.mem_take_iff_getElem, Supply.returns, supply, List.getD_eq_getElem?_getD]
  constructor
  · intro hzero j hj
    by_cases hlt : j < d.results.length
    · rw [List.getElem?_eq_getElem hlt]
      exact hzero _ ⟨j, by omega, rfl⟩
    · rw [List.getElem?_eq_none (by omega)]
      rfl
  · rintro hzero ret ⟨j, hj, rfl⟩
    have := hzero j (by omega)
    rwa [List.getElem?_eq_getElem (by omega), Option.getD_some] at this

/-- A command that calls no driver. -/
theorem truthful_silent {p : Packet} {d d₁ : Device} (hout : d₁.out = d.out)
    (hres : d₁.results = d.results) : Truthful p d (d₁.sendAck p.id) ↔ InForce p d₁ := by
  rw [truthful_quiet hout, resultsSince_drop (k := 0) hres]
  simp

/-! ## One command at a time -/

section Commands

variable {p : Packet} {d : Device}

theorem inForce_time (ht : p.type = 0x01) :
    InForce p d ↔ d.rtcTime = requestedTime p.payload := by
  refine ⟨fun h => h.time ht, fun h => ⟨fun _ => h, ?_, ?_, ?_, ?_⟩⟩ <;>
    intro hne <;> simp [ht] at hne

theorem inForce_freq (ht : p.type = 0x03) :
    InForce p d ↔ d.baseFrequency.toNat
      = max (10100000 * 100) (min (10150000 * 100) (requestedFreq p.payload).toNat) := by
  refine ⟨fun h => h.freq ht, fun h => ⟨?_, fun _ => h, ?_, ?_, ?_⟩⟩ <;>
    intro hne <;> simp [ht] at hne

theorem inForce_supply (ht : p.type = 0x05) {state : UInt8} {rest : List UInt8}
    (hpayload : p.payload = state :: rest) :
    InForce p d ↔ d.regulator.outputOn = requestedOn state
      ∧ d.regulator.microvolt = requestedMicrovolt state := by
  refine ⟨fun h => h.supply ht state rest hpayload, fun h => ⟨?_, ?_, ?_, ?_, ?_⟩⟩
  case refine_3 =>
    intro _ state' rest' hpayload'
    rw [hpayload, List.cons.injEq] at hpayload'
    rw [← hpayload'.1]
    exact h
  all_goals intro hne; simp [ht] at hne

theorem inForce_signal (ht : p.type = 0x07) :
    InForce p d ↔ Transmits (requestedDuration p.payload) d := by
  refine ⟨fun h => h.signal ht, fun h => ⟨?_, ?_, ?_, fun _ => h, ?_⟩⟩ <;>
    intro hne <;> simp [ht] at hne

theorem inForce_relays (ht : p.type = 0x08) :
    InForce p d ↔ d.relays
      = if p.payload.head? = some 1 then ⟨true, true, false⟩ else ⟨false, false, true⟩ := by
  refine ⟨fun h => h.relays ht, fun h => ⟨?_, ?_, ?_, ?_, fun _ => h⟩⟩ <;>
    intro hne <;> simp [ht] at hne

/-- On the regulator nothing goes wrong unnoticed if the driver takes the voltage and the switch is
obeyed. -/
theorem obeyed_supply (ht : p.type = 0x05) {state : UInt8} {rest : List UInt8}
    (hpayload : p.payload = state :: rest) :
    Obeyed p d ↔ d.supply.returns 0 = 0 ∧ (d.supply.skip 1).obeys (requestedOn state) := by
  refine ⟨fun h => h.supply ht state rest hpayload, fun h => ⟨?_, fun h₇ => by simp [ht] at h₇⟩⟩
  intro _ state' rest' hpayload'
  rw [hpayload, List.cons.injEq] at hpayload'
  rw [← hpayload'.1]
  exact h

/-- Commands on which nothing can go wrong unnoticed. -/
theorem obeyed_other (h₅ : p.type ≠ 0x05) (h₇ : p.type ≠ 0x07) : Obeyed p d :=
  ⟨fun h => absurd h h₅, fun h => absurd h h₇⟩

/-- The clock is asked, and its answer is the reply. -/
theorem truthful_setTime (ht : p.type = 0x01) :
    Truthful p d (handleRtcSetTime p.payload p.id d) := by
  rw [handleRtcSetTime_eq, rtcSetTime_eq]
  split
  · exact truthful_refused p d
  · by_cases hret : d.supply.returns 0 = 0
    · rw [if_pos hret, if_pos rfl, truthful_quiet (by rfl),
        resultsSince_drop (k := 1) rfl, inForce_time ht]
      refine ⟨fun j hj => ?_, rfl⟩
      obtain rfl : j = 0 := by omega
      exact hret
    · rw [if_neg hret, if_neg hret]
      exact truthful_sendNack (List.append_nil _).symm rfl ⟨rfl, rfl, rfl, rfl⟩

theorem truthful_trSwitch (ht : p.type = 0x08) :
    Truthful p d (handleTrSwitch p.payload p.id d) := by
  rw [handleTrSwitch_eq]
  split
  · rename_i hmode
    rw [truthful_silent (by rfl) (by rfl), inForce_relays ht, hmode, if_neg (by simp)]
    rfl
  · split
    · rename_i hmode
      rw [truthful_silent (by rfl) (by rfl), inForce_relays ht, hmode, if_pos rfl]
      rfl
    · exact truthful_refused p d

theorem truthful_setFreq (ht : p.type = 0x03) :
    Truthful p d (handleSetBaseFreq p.payload p.id d) := by
  rw [handleSetBaseFreq_eq]
  split
  · exact truthful_refused p d
  · rw [truthful_silent (by rfl) (by rfl), inForce_freq ht]
    exact clampFrequency_toNat _

/-- What is left of the drivers' answers when voltage and switch have had theirs. -/
theorem supply_setBuckBoost {state : UInt8} (hret : d.supply.returns 0 = 0) :
    ∃ s, ((d.regulatorSetVoltage (requestedMicrovolt state)).2.regulatorSwitch
        (requestedOn state)).2.supply = s.switch (requestedOn state)
      ∧ s = { d.supply.skip 1 with
          regulator := { d.regulator with microvolt := requestedMicrovolt state } } := by
  refine ⟨_, ?_, rfl⟩
  rw [supply_regulatorSwitch, supply_regulatorSetVoltage, if_neg (by omega)]

theorem results_setBuckBoost (d : Device) (uv : Int) (on : Bool) :
    ∃ k, ((d.regulatorSetVoltage uv).2.regulatorSwitch on).2.results
      = d.results.drop (1 + k) := by
  have hset : (d.regulatorSetVoltage uv).2.supply.results = d.results.drop 1 := by
    rw [supply_regulatorSetVoltage]
    split <;> rfl
  refine ⟨(d.regulatorSetVoltage uv).2.supply.callCount on, ?_⟩
  show ((d.regulatorSetVoltage uv).2.regulatorSwitch on).2.supply.results = _
  rw [supply_regulatorSwitch, Supply.switch_results, hset, List.drop_drop]

/-- **The regulator does as asked exactly where its driver and its use count allow it.** -/
theorem truthful_setBuckBoost (ht : p.type = 0x05) :
    Truthful p d (handleSetBuckBoostRegulator p.payload p.id d) ↔ Obeyed p d := by
  rw [handleSetBuckBoostRegulator_eq]
  cases hpayload : p.payload with
  | nil =>
      refine iff_of_true (truthful_refused p d) ⟨?_, fun h => by simp [ht] at h⟩
      intro _ state rest hcons
      rw [hpayload] at hcons
      cases hcons
  | cons state rest =>
      dsimp only
      rw [obeyed_supply ht hpayload, truthful_quiet (by simp), inForce_supply ht hpayload]
      by_cases hret : d.supply.returns 0 = 0
      · obtain ⟨s, hsupply, hs⟩ := @supply_setBuckBoost d state hret
        have hobeys : s.obeys (requestedOn state)
            ↔ (d.supply.skip 1).obeys (requestedOn state) := by
          rw [hs]
          exact Iff.rfl
        have hres := congrArg Supply.results hsupply
        have hreg := congrArg Supply.regulator hsupply
        have hreturns : ∀ j, s.returns j = d.supply.returns (1 + j) := by
          intro j
          rw [hs]
          exact Supply.returns_skip d.supply 1 j
        rw [Supply.switch_results, show s.results = d.results.drop 1 by rw [hs]; rfl,
          List.drop_drop] at hres
        dsimp only [supply] at hres hreg
        rw [resultsSince_drop hres, hreg, Supply.switch_microvolt, ← hobeys, Supply.obeys_iff]
        constructor
        · rintro ⟨hzero, hon, _⟩
          refine ⟨hret, fun j hj => ?_, hon⟩
          rw [hreturns]
          exact hzero _ (by omega)
        · rintro ⟨_, hzero, hon⟩
          refine ⟨fun j hj => ?_, hon, by rw [hs]⟩
          cases j with
          | zero => exact hret
          | succ j =>
              rw [Nat.add_comm, ← hreturns]
              exact hzero j (by omega)
      · -- the driver refuses the voltage, and the handler does not look
        obtain ⟨k, hk⟩ := results_setBuckBoost d (requestedMicrovolt state) (requestedOn state)
        rw [resultsSince_drop hk]
        constructor
        · rintro ⟨hzero, _⟩
          exact absurd (hzero 0 (by omega)) hret
        · rintro ⟨h, _⟩
          exact absurd h hret

/-- What an accepted test signal leaves to be asked. -/
theorem transmits_start {durationMs : UInt32} :
    Transmits durationMs
        ((txEngineStart (some (testSignalSeq durationMs d.baseFrequency))).exec d)
      ↔ durationMs.toNat * 1000 < 4294967296
        ∧ ((d.supply.skip (enableOutputCalls d.supply)).switch false |>.switch true).regulator.outputOn
            = true := by
  have hsched := @schedule_start d (testSignalSeq durationMs d.baseFrequency) Nat.one_ne_zero
  have hsupply := @supply_start d (testSignalSeq durationMs d.baseFrequency) Nat.one_ne_zero rfl
  generalize (txEngineStart (some (testSignalSeq durationMs d.baseFrequency))).exec d = d' at *
  have hus : (durationMs * 1000).toNat = durationMs.toNat * 1000 % 4294967296 := by
    rw [UInt32.toNat_mul]
    rfl
  have htimer : d'.txTimer = some (durationMs * 1000) := congrArg Schedule.txTimer hsched
  rw [← hsupply]
  constructor
  · intro h
    obtain ⟨us, htimer', htimed⟩ := h.timed
    refine ⟨?_, h.powered⟩
    rw [htimer, Option.some.injEq] at htimer'
    rw [← htimer', hus] at htimed
    omega
  · rintro ⟨hfits, hon⟩
    refine ⟨congrArg Schedule.engineActive hsched,
      ⟨_, congrArg Schedule.activeSeq hsched, ⟨rfl, rfl, rfl⟩, rfl⟩,
      ⟨_, htimer, by rw [hus, Nat.mod_eq_of_lt hfits]⟩, hon⟩

/-- **The test signal is played as asked exactly where duration, clock and supply allow it.** -/
theorem truthful_testSignal (ht : p.type = 0x07) :
    Truthful p d (handleTxTestSignal p.payload p.id d) ↔ Obeyed p d := by
  rw [handleTxTestSignal_eq]
  have hobeyed : Obeyed p d ↔ ∀ seq, testSignalFor p.payload d = some seq →
      (requestedDuration p.payload).toNat * 1000 < 4294967296
        ∧ d.supply.returns 0 = 0 ∧ d.supply.returns 1 = 0 ∧ (d.supply.skip 2).cycles := by
    exact ⟨fun h => h.signal ht, fun h => ⟨fun h₅ => by simp [ht] at h₅, fun _ => h⟩⟩
  rw [hobeyed]
  cases hseq : testSignalFor p.payload d with
  | none =>
      refine iff_of_true ?_ (by simp)
      dsimp only
      split
      · exact truthful_refused p d
      · rw [sendDebugMessage_eq]
        exact truthful_sendNack rfl rfl ⟨rfl, rfl, rfl, rfl⟩
  | some seq =>
      obtain ⟨hne, hkeyed⟩ := testSignalFor_keyed hseq
      have hseq' : seq = testSignalSeq (requestedDuration p.payload) d.baseFrequency := by
        rw [testSignalFor] at hseq
        split at hseq
        · exact (Option.some.inj hseq).symm
        · cases hseq
      dsimp only
      rw [truthful_sendAck (out_start d hne) (by rw [hkeyed]; rfl),
        resultsSince_drop (results_start d hne hkeyed), inForce_signal ht]
      subst hseq'
      rw [transmits_start, ← startCalls_iff]
      constructor
      · rintro ⟨hzero, hfits, hon⟩ seq _
        exact ⟨hfits, hzero, hon⟩
      · intro h
        obtain ⟨hfits, hzero, hon⟩ := h _ rfl
        exact ⟨hzero, hfits, hon⟩

/--
**Replies tell the truth exactly where nothing can go wrong unnoticed.**

For every setting command, in every state and whatever the driver calls return:
an ACK means that no call failed and that the setting is in force, and a NACK that
nothing changed, if and only if the command is `Obeyed`. Time, frequency and relays
always are, and so is whatever is refused with a NACK.
-/
theorem replies_truthful (hset : p.type ∈ settingTypes) (d : Device) :
    Truthful p d (d.dispatch p) ↔ Obeyed p d := by
  have hreg : Registered p := by
    rw [Registered]
    simp only [settingTypes, List.mem_cons, List.not_mem_nil, or_false] at hset
    rcases hset with h | h | h | h | h <;> rw [h] <;> decide
  have hreset : p.type ≠ 0xFD := by
    intro h
    rw [h] at hset
    exact absurd hset (by decide)
  rcases dispatch_cases hreg hreset d with ⟨ht, h⟩ | ⟨ht, h⟩ | ⟨ht, h⟩ | ⟨ht, h⟩ | ⟨ht, h⟩ | ⟨ht, h⟩
    | ⟨ht, h⟩ | ⟨ht, h⟩ <;> rw [h]
  · exact iff_of_true (truthful_setTime ht)
      (obeyed_other (by simp [ht]) (by simp [ht]))
  · exact absurd hset (by rw [ht]; decide)
  · exact iff_of_true (truthful_setFreq ht) (obeyed_other (by simp [ht]) (by simp [ht]))
  · exact absurd hset (by rw [ht]; decide)
  · exact truthful_setBuckBoost ht
  · exact absurd hset (by rw [ht]; decide)
  · exact truthful_testSignal ht
  · exact iff_of_true (truthful_trSwitch ht)
      (obeyed_other (by simp [ht]) (by simp [ht]))

end Commands

/-- A 0x05 command for 12 V, on a device whose regulator refuses the voltage. -/
theorem replies_truthful_refused :
    let p : Packet := { type := 0x05, id := 1, payload := [0x8C] }
    let d := { boot (fun _ => 0) ⟨0, 0, 0, 0, 0, 0⟩ 0 [-5] with
      regulator := { refcnt := 0, outputOn := false, microvolt := 0 } }
    Replied 0xFF d (d.dispatch p)
      ∧ (d.dispatch p).regulator.microvolt ≠ requestedMicrovolt 0x8C
      ∧ ¬ Truthful p d (d.dispatch p) := by
  intro p d
  have hack : Replied 0xFF d (d.dispatch p) :=
    ⟨{ type := 0xFF, id := 1, payload := [] }, by decide +kernel, rfl⟩
  have hfailed : (-5 : Int) ∈ resultsSince d (d.dispatch p) := by decide +kernel
  refine ⟨hack, by decide +kernel, fun h => ?_⟩
  exact absurd ((h.ack hack).1 (-5) hfailed) (by decide)

/-- The relays always do what is asked. -/
theorem replies_truthful_relays :
    let p : Packet := { type := 0x08, id := 1, payload := [1] }
    let d := boot (fun _ => 0) ⟨0, 0, 0, 0, 0, 0⟩ 0 []
    Truthful p d (d.dispatch p) :=
  (replies_truthful (p := { type := 0x08, id := 1, payload := [1] }) (by decide) _).mpr
    ⟨fun h => absurd h (by decide), fun h => absurd h (by decide)⟩

end Device

end MiniHF
