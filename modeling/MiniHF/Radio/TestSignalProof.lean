import MiniHF.Radio.RelayProof
import MiniHF.Radio.ReplyProof

/-!
# How long a test signal is

A test signal that is acknowledged has started: one keyed symbol, applied, with the
timer armed for it. The request is in milliseconds and the symbol in microseconds,
and the product of the two has 32 bits. So the symbol is as long as it should be
up to 4294967 ms, and shorter from there on.
-/

namespace MiniHF.Device

open Interrupts Interrupts.Code LittleEndian

/-- One keyed symbol was started, and its timer is armed for this many microseconds. -/
def KeyedFor (d : Device) (us : Nat) : Prop :=
  ∃ seq, TestSignal seq ∧ d.schedule = startSchedule seq ∧ (seq.symbol 0).durationUs.toNat = us

/-- A duration in microseconds is the one in milliseconds, unless it has more than 32 bits. -/
theorem durationUs_iff (durationMs : UInt32) :
    (durationMs * 1000).toNat = 1000 * durationMs.toNat ↔ durationMs.toNat < 4294968 := by
  have hthousand : (1000 : UInt32).toNat = 1000 := rfl
  rw [UInt32.toNat_mul, hthousand]
  omega

theorem requestedDuration_toNat (payload : List UInt8) :
    (requestedDuration payload).toNat = leValue (payload.take 4) := by
  have hlt := leValue_lt (payload.take 4)
  have hrange := leRange_mono (List.length_take_le 4 payload)
  unfold requestedDuration
  rw [UInt32.toNat_ofNat']
  exact Nat.mod_eq_of_lt (Nat.lt_of_lt_of_le hlt hrange)

/-- What is behind a refusal was not acknowledged. -/
theorem not_acked {d d₁ : Device} {before : List Output} {id : UInt16}
    (hout : d₁.out = d.out ++ before) (hbefore : replies before = []) :
    ¬ Replied 0xFF d (d₁.sendNack id) := by
  intro hack
  have hout' : (d₁.sendNack id).out
      = d.out ++ (before ++ [.packet { type := 0xFE, id, payload := [] }]) := by
    rw [out_sendNack, hout, List.append_assoc]
  exact absurd ((replied_iff hout' hbefore (by simp)).mp hack) (by simp)

/-- **An acknowledged test signal was started.** -/
theorem testSignal_acked {payload : List UInt8} {id : UInt16} {d : Device}
    (hack : Replied 0xFF d (handleTxTestSignal payload id d)) :
    testSignalFor payload d = some (testSignalSeq (requestedDuration payload) d.baseFrequency) := by
  by_cases hcond : d.txActive ∧ 4 ≤ payload.length ∧ requestedDuration payload ≠ 0
  · exact if_pos hcond
  · have hnone : testSignalFor payload d = none := if_neg hcond
    rw [handleTxTestSignal_eq, hnone] at hack
    dsimp only at hack
    split at hack
    · exact absurd hack (not_acked (List.append_nil _).symm rfl)
    · exact absurd hack (not_acked (d.out_sendDebugMessage _) rfl)

/-- What is started is acknowledged. -/
theorem acked_testSignal {payload : List UInt8} (id : UInt16) {d : Device} {seq : TxSequence}
    (hseq : testSignalFor payload d = some seq) :
    Replied 0xFF d (handleTxTestSignal payload id d) := by
  obtain ⟨hne, hkeyed⟩ := testSignalFor_keyed hseq
  have hout : (handleTxTestSignal payload id d).out
      = d.out ++ ((stopTexts ++ [.printk (startedText seq)])
        ++ [.packet { type := 0xFF, id, payload := [] }]) := by
    rw [handleTxTestSignal_eq, hseq]
    dsimp only
    rw [out_sendAck, out_start d hne, hkeyed, if_pos rfl, List.append_assoc]
  exact (replied_iff hout rfl (by simp)).mpr rfl

/-- **The symbol is as long as it should be as long as that has 32 bits.** -/
theorem testSignal_duration {payload : List UInt8} {id : UInt16} {d : Device}
    (hack : Replied 0xFF d (handleTxTestSignal payload id d)) :
    KeyedFor (handleTxTestSignal payload id d) (1000 * leValue (payload.take 4))
      ↔ leValue (payload.take 4) < 4294968 := by
  have hseq := testSignal_acked hack
  have hstart : (handleTxTestSignal payload id d).schedule
      = startSchedule (testSignalSeq (requestedDuration payload) d.baseFrequency) := by
    rw [handleTxTestSignal_eq, hseq]
    dsimp only
    rw [schedule_sendAck]
    exact schedule_start d Nat.one_ne_zero
  have hiff := durationUs_iff (requestedDuration payload)
  rw [requestedDuration_toNat] at hiff
  rw [← hiff]
  constructor
  · rintro ⟨seq, -, hsched, hus⟩
    -- the sequence that was started is the one that plays
    have hsame : testSignalSeq (requestedDuration payload) d.baseFrequency = seq :=
      Option.some.inj (congrArg Schedule.started (hstart.symm.trans hsched))
    rw [← hus, ← hsame]
    rfl
  · intro hus
    exact ⟨_, testSignal _ _, hstart, hus⟩

/-- A second. -/
theorem testSignal_duration_second :
    let d := (boot (fun _ => 0) ⟨0, 0, 0, 0, 0, 0⟩ 0 []).trSetTx
    KeyedFor (handleTxTestSignal [0xE8, 0x03, 0x00, 0x00] 1 d) (1000 * 1000) :=
  (testSignal_duration (acked_testSignal 1 rfl)).mpr (by decide)

/-- **The first one that is too short**: 704 microseconds of 4294968 milliseconds. -/
theorem testSignal_duration_wrapped :
    ¬ ∀ (payload : List UInt8) (id : UInt16) (d : Device),
      Replied 0xFF d (handleTxTestSignal payload id d) →
        KeyedFor (handleTxTestSignal payload id d) (1000 * leValue (payload.take 4)) := by
  intro h
  let d := (boot (fun _ => 0) ⟨0, 0, 0, 0, 0, 0⟩ 0 []).trSetTx
  have hack : Replied 0xFF d (handleTxTestSignal [0x38, 0x89, 0x41, 0x00] 1 d) :=
    acked_testSignal 1 rfl
  obtain ⟨seq, -, hsched, hus⟩ := h _ _ _ hack
  have hstarted : some (testSignalSeq 4294968 (10136000 * 100)) = some seq :=
    congrArg Schedule.started hsched
  rw [← Option.some.inj hstarted] at hus
  exact absurd hus (by decide)

end MiniHF.Device
