import MiniHF.Lib.Runs
import MiniHF.Radio.ReplyProof
import MiniHF.Radio.SettingsProof

/-!
# The base frequency stays in the band

The only command that writes the base frequency clamps it, and the only command
that starts a sequence clamps again, divides by 100 and narrows to 32 bits. So the
invariant is that the base frequency lies in the band, and in such a state a test
signal carries it unchanged, but for the hundredths.
-/

namespace MiniHF

open Interrupts Interrupts.Code Runs

namespace Device

/-- The base frequency, in hundredths of a hertz, lies in the 30 m band. -/
def InBand (d : Device) : Prop :=
  10100000 * 100 ≤ d.baseFrequency.toNat ∧ d.baseFrequency.toNat ≤ 10150000 * 100

/-- Nothing is printed between two states. -/
def Silent (d d' : Device) : Prop := ∀ text, .printk text ∉ outputSince d d'

/--
What a command may hand to the engine in this state: nothing, or one sequence in
transmit position that carries the base frequency in whole hertz.
-/
def StartsInBand (crc16Ccitt : UInt16 → List UInt8 → UInt16) (d : Device) : DeviceEvent → Prop
  | .receive data =>
      Silent d (d.parseDispatchPacket crc16Ccitt data)
        ∨ ∃ seq id, d.parseDispatchPacket crc16Ccitt data
              = ((txEngineStart (some seq)).exec d).sendAck id
            ∧ seq.baseFreqHz.toNat = d.baseFrequency.toNat / 100
            ∧ 10100000 ≤ seq.baseFreqHz.toNat ∧ seq.baseFreqHz.toNat ≤ 10150000
            ∧ 1 ≤ seq.totalSymbols ∧ d.txActive = true
  | _ => True

/-- **A test signal carries the base frequency in whole hertz.** -/
theorem testSignalFor_inBand {d : Device} (h : InBand d) {payload : List UInt8} {seq : TxSequence}
    (hseq : testSignalFor payload d = some seq) :
    seq.baseFreqHz.toNat = d.baseFrequency.toNat / 100 ∧ 1 ≤ seq.totalSymbols
      ∧ d.txActive = true := by
  rw [testSignalFor] at hseq
  split at hseq
  · rename_i hstart
    obtain ⟨hlow, hhigh⟩ := h
    rw [Option.some.injEq] at hseq
    subst hseq
    refine ⟨?_, Nat.le_refl 1, hstart.1⟩
    rw [testSignalSeq, clampFrequency_of_inBand hlow hhigh, UInt64.toNat_toUInt32,
      UInt64.toNat_div]
    -- 32 bits hold every frequency of the band
    have hhundred : (100 : UInt64).toNat = 100 := rfl
    rw [hhundred]
    omega
  · cases hseq

theorem inBand_of_settings {d d' : Device} (h : InBand d) (hs : d'.settings = d.settings) :
    InBand d' := by
  have hfreq : d'.baseFrequency = d.baseFrequency := congrArg Settings.baseFrequency hs
  rw [InBand, hfreq]
  exact h

theorem inBand_of_init {d : Device} (h : d.baseFrequency = 10136000 * 100) : InBand d := by
  rw [InBand, h]
  decide

/-- Every event keeps the base frequency in the band. -/
theorem inBand_step (crc16Ccitt : UInt16 → List UInt8 → UInt16) {d : Device} (h : InBand d)
    (e : DeviceEvent) : InBand (deviceStep crc16Ccitt d e) := by
  cases e with
  | receive data =>
      show InBand (d.parseDispatchPacket crc16Ccitt data)
      rcases parseDispatchPacket_cases crc16Ccitt data d with
        hsame | ⟨p, _, _, hreset⟩ | ⟨p, _, hreg, hreset, hdispatch⟩
      · rw [hsame]
        exact h
      · rw [hreset]
        exact inBand_of_init rfl
      · have hs := congrArg Settings.baseFrequency (settings_dispatch hreg hreset d)
        dsimp only [settings] at hs
        rw [hdispatch, InBand, hs]
        split
        · rw [clampFrequency_toNat]
          omega
        · exact h
  | expire => exact inBand_of_settings h (settings_step crc16Ccitt d (by simp))
  | work => exact inBand_of_settings h (settings_step crc16Ccitt d (by simp))

/-- A command with nothing but packets in its output is silent. -/
theorem silent_of_packets {d d' : Device} {before : List Output} {reply : Packet}
    (hout : d'.out = d.out ++ (before ++ [.packet reply]))
    (hbefore : ∀ text, .printk text ∉ before) : Silent d d' := by
  intro text hmem
  rw [outputSince, hout, List.drop_left, List.mem_append] at hmem
  rcases hmem with hmem | hmem
  · exact hbefore text hmem
  · simp at hmem

/-- In a state in the band every command starts what it may, or nothing. -/
theorem startsInBand_of_inBand (crc16Ccitt : UInt16 → List UInt8 → UInt16) {d : Device}
    (h : InBand d) (e : DeviceEvent) : StartsInBand crc16Ccitt d e := by
  cases e with
  | expire => trivial
  | work => trivial
  | receive data =>
      have hsame : Silent d d := by
        intro text hmem
        rw [outputSince, List.drop_length] at hmem
        cases hmem
      rw [StartsInBand]
      rcases parseDispatchPacket_cases crc16Ccitt data d with
        hnone | ⟨p, _, _, hreset⟩ | ⟨p, _, hreg, hreset, hdispatch⟩
      · rw [hnone]
        exact Or.inl hsame
      · rw [hreset]
        exact Or.inl hsame
      · rw [hdispatch]
        obtain ⟨reply, _, hout⟩ := dispatch_out hreg hreset d
        by_cases ht : p.type = 0x07
        · cases hseq : testSignalFor p.payload d with
          | none =>
              refine Or.inl (silent_of_packets hout ?_)
              rw [preamble, if_pos ht, hseq]
              dsimp only
              split <;> simp
          | some seq =>
              obtain ⟨hfreq, hone, hactive⟩ := testSignalFor_inBand h hseq
              obtain ⟨hlow, hhigh⟩ := h
              refine Or.inr ⟨seq, p.id, ?_, hfreq, by omega, by omega, hone, hactive⟩
              rw [dispatch_testSignal ht, handleTxTestSignal_eq, hseq]
        · refine Or.inl (silent_of_packets hout ?_)
          rw [preamble, if_neg ht]
          simp

/--
**Nothing is started outside the band.**

Over every run after boot of received byte strings, timer expiries and runs of the
work handler: the base frequency is always in the band, and whatever a command
hands to `tx_engine_start` carries it in whole hertz, has a symbol, and is handed
over in transmit position.
-/
theorem starts_in_band (crc16Ccitt : UInt16 → List UInt8 → UInt16) (si5351aRegs : UInt8 → UInt8)
    (rtcTime : RtcTime) (microvolt : Int) (results : List Int) (es : List DeviceEvent) :
    Throughout (deviceStep crc16Ccitt) InBand (boot si5351aRegs rtcTime microvolt results) es
      ∧ Along (deviceStep crc16Ccitt) (StartsInBand crc16Ccitt)
          (boot si5351aRegs rtcTime microvolt results) es := by
  have hboot : InBand (boot si5351aRegs rtcTime microvolt results) := inBand_of_init rfl
  have hstep : ∀ d e, InBand d → InBand (deviceStep crc16Ccitt d e) :=
    fun d e h => inBand_step crc16Ccitt h e
  exact ⟨throughout_of_invariant hstep hboot es,
    along_of_invariant hstep (fun d e h => startsInBand_of_inBand crc16Ccitt h e) hboot es⟩

end Device

end MiniHF
