import MiniHF.Protocol.PacketProof
import MiniHF.Radio.HandlerProof
import MiniHF.Radio.TxEngine

/-!
# One reply to every command

A handler puts out one packet that is no debug message, as the last thing it does.
What may come before is a debug message, or the text the engine prints when a test
signal starts; `preamble` says which. `dispatch_out` gives the output of every
command that is answered.
-/

namespace MiniHF

open Interrupts Interrupts.Code

namespace Device

/-! ## Output of the statements -/

section Statements

variable (d : Device)

theorem out_sendPacket {cmdId : UInt8} {payload : List UInt8} {id : UInt16}
    (h : payload.length ≤ 255) :
    (d.sendPacket cmdId payload id).out = d.out ++ [.packet { type := cmdId, id, payload }] := by
  rw [sendPacket, if_neg (by omega)]

@[simp] theorem out_sendAck (id : UInt16) :
    (d.sendAck id).out = d.out ++ [.packet { type := 0xFF, id, payload := [] }] := rfl

@[simp] theorem out_sendNack (id : UInt16) :
    (d.sendNack id).out = d.out ++ [.packet { type := 0xFE, id, payload := [] }] := rfl

/-- The packet a debug message travels in. -/
def debugPacket (message : String) : Packet where
  type := 0xFC
  id := 0
  payload := message.toUTF8.toList.take 255

theorem sendDebugMessage_eq (message : String) :
    d.sendDebugMessage message = { d with out := d.out ++ [.packet (debugPacket message)] } :=
  if_neg (Nat.not_lt.mpr (List.length_take_le _ _))

@[simp] theorem out_sendDebugMessage (message : String) :
    (d.sendDebugMessage message).out = d.out ++ [.packet (debugPacket message)] := by
  rw [sendDebugMessage_eq]

@[simp] theorem out_printk (text : String) : (d.printk text).out = d.out ++ [.printk text] := rfl

@[simp] theorem out_kTimerStart (duration : UInt32) : (d.kTimerStart duration).out = d.out := rfl

@[simp] theorem out_kTimerStop : d.kTimerStop.out = d.out := rfl

@[simp] theorem out_kWorkCancel : d.kWorkCancel.out = d.out := rfl

@[simp] theorem out_setEngineActive (b : Bool) : (d.setEngineActive b).out = d.out := rfl

@[simp] theorem out_setActiveSeq (seq : Option TxSequence) : (d.setActiveSeq seq).out = d.out := rfl

@[simp] theorem out_setCurrentIndex (i : Nat) : (d.setCurrentIndex i).out = d.out := rfl

@[simp] theorem out_noteStart (seq : TxSequence) : (d.noteStart seq).out = d.out := rfl

@[simp] theorem out_noteSymbol (sym : TxSymbol) : (d.noteSymbol sym).out = d.out := rfl

@[simp] theorem out_result : d.result.2.out = d.out := by
  obtain ⟨_, h⟩ := d.result_touches
  rw [h]

@[simp] theorem out_si5351aEnableOutput (output : UInt8) (enable : Bool) :
    (d.si5351aEnableOutput output enable).2.out = d.out := by
  obtain ⟨_, _, h⟩ := d.si5351aEnableOutput_touches output enable
  rw [h]

@[simp] theorem out_regulatorEnable : d.regulatorEnable.2.out = d.out := by
  obtain ⟨_, _, h⟩ := d.regulatorEnable_touches
  rw [h]

@[simp] theorem out_regulatorDisable : d.regulatorDisable.2.out = d.out := by
  obtain ⟨_, _, h⟩ := d.regulatorDisable_touches
  rw [h]

@[simp] theorem out_regulatorSwitch (on : Bool) : (d.regulatorSwitch on).2.out = d.out := by
  cases on with
  | true => exact d.out_regulatorEnable
  | false => exact d.out_regulatorDisable

@[simp] theorem out_regulatorSetVoltage (uv : Int) : (d.regulatorSetVoltage uv).2.out = d.out := by
  unfold regulatorSetVoltage
  dsimp only
  split <;> exact d.out_result

@[simp] theorem out_rtcSetTime (tm : RtcTime) : (d.rtcSetTime tm).2.out = d.out := by
  unfold rtcSetTime
  dsimp only
  split <;> exact d.out_result

end Statements

/-- What `tx_off` prints. -/
def offText : Output := .printk "tx_engine: TX off\n"

/-- What `tx_engine_stop` prints. -/
def stopTexts : List Output := [.printk "tx_engine: stopping\n", offText]

theorem out_txOff (d : Device) : (txOff.exec d).out = d.out ++ [offText] := by
  simp only [txOff, exec_act, exec_done]
  rw [out_regulatorDisable, out_si5351aEnableOutput, out_printk]
  rfl

theorem out_applySymbol (sym : TxSymbol) (d : Device) :
    ((applySymbol sym).exec d).out = d.out ++ if sym.txOn then [] else [offText] := by
  rw [applySymbol, exec_act]
  split
  · rw [exec_act, exec_done, out_regulatorEnable, out_noteSymbol, List.append_nil]
  · rw [out_txOff, out_noteSymbol]

theorem out_stop (d : Device) : (txEngineStop.exec d).out = d.out ++ stopTexts := by
  simp only [txEngineStop, exec_act, exec_andThen, exec_done]
  rw [out_setActiveSeq, out_setEngineActive, out_txOff, out_kWorkCancel, out_kTimerStop,
    out_printk, List.append_assoc]
  rfl

/-- A start prints the texts of a stop and its own, and an unkeyed symbol its own. -/
theorem out_start (d : Device) {seq : TxSequence} (hseq : seq.totalSymbols ≠ 0) :
    ((txEngineStart (some seq)).exec d).out
      = d.out ++ (stopTexts ++ .printk (startedText seq)
          :: if (seq.symbol 0).txOn then [] else [offText]) := by
  simp only [txEngineStart, if_neg hseq, exec_act, exec_andThen, exec_done]
  rw [out_kTimerStart, out_applySymbol, out_printk, out_setEngineActive, out_setCurrentIndex,
    out_noteStart, out_setActiveSeq, out_stop, List.append_assoc, List.append_assoc]
  rfl

/-! ## The output of a command -/

/-- What a command puts out before its reply. -/
def preamble (p : Packet) (d : Device) : List Output :=
  if p.type = 0x07 then
    match testSignalFor p.payload d with
    | some seq => stopTexts ++ [.printk (startedText seq)]
    | none => if d.txActive then [] else [.packet (debugPacket notActiveText)]
  else []

/-- A reply to a packet. -/
structure Answers (p reply : Packet) : Prop where
  id : reply.id = p.id
  /-- ACK, NACK, or the data asked for. -/
  type : reply.type = 0xFF ∨ reply.type = 0xFE ∨ reply.type = p.type
  /-- It fits a packet. -/
  short : reply.payload.length ≤ 255

theorem answers_ack (p : Packet) : Answers p { type := 0xFF, id := p.id, payload := [] } :=
  ⟨rfl, Or.inl rfl, by simp⟩

theorem answers_nack (p : Packet) : Answers p { type := 0xFE, id := p.id, payload := [] } :=
  ⟨rfl, Or.inr (Or.inl rfl), by simp⟩

theorem testSignalFor_keyed {payload : List UInt8} {d : Device} {seq : TxSequence}
    (h : testSignalFor payload d = some seq) :
    seq.totalSymbols ≠ 0 ∧ (seq.symbol 0).txOn = true := by
  rw [testSignalFor] at h
  split at h
  · rw [Option.some.injEq] at h
    subst h
    exact ⟨Nat.one_ne_zero, rfl⟩
  · cases h

/-- **A command puts out its preamble and one reply.** -/
theorem dispatch_out {p : Packet} (hreg : Registered p) (hreset : p.type ≠ 0xFD) (d : Device) :
    ∃ reply, Answers p reply ∧ (d.dispatch p).out = d.out ++ (preamble p d ++ [.packet reply]) := by
  rcases dispatch_cases hreg hreset d with ⟨ht, h⟩ | ⟨ht, h⟩ | ⟨ht, h⟩ | ⟨ht, h⟩ | ⟨ht, h⟩ | ⟨ht, h⟩
    | ⟨ht, h⟩ | ⟨ht, h⟩ <;> rw [h, preamble, ht]
  · rw [handleRtcSetTime_eq]
    split
    · exact ⟨_, answers_nack p, out_sendNack ..⟩
    · split
      · exact ⟨_, answers_ack p, by rw [out_sendAck, out_rtcSetTime]; rfl⟩
      · exact ⟨_, answers_nack p, by rw [out_sendNack, out_rtcSetTime]; rfl⟩
  · rw [handleRtcGetTime_eq]
    split
    · refine ⟨{ type := 0x02, id := p.id, payload := rtcBytes d.rtcTime },
        ⟨rfl, Or.inr (Or.inr ht.symm), by simp [rtcBytes]⟩, ?_⟩
      rw [out_sendPacket _ (by simp [rtcBytes]), out_result]
      rfl
    · exact ⟨_, answers_nack p, by rw [out_sendNack, out_result]; rfl⟩
  · rw [handleSetBaseFreq_eq]
    split
    · exact ⟨_, answers_nack p, out_sendNack ..⟩
    · exact ⟨_, answers_ack p, out_sendAck ..⟩
  · rw [handleGetBaseFreq_eq]
    exact ⟨{ type := 0x04, id := p.id, payload := LittleEndian.leBytes 8 d.baseFrequency.toNat },
      ⟨rfl, Or.inr (Or.inr ht.symm), by simp⟩, d.out_sendPacket (by simp)⟩
  · rw [handleSetBuckBoostRegulator_eq]
    split
    · exact ⟨_, answers_nack p, out_sendNack ..⟩
    · refine ⟨_, answers_ack p, ?_⟩
      rw [out_sendAck, out_regulatorSwitch, out_regulatorSetVoltage]
      rfl
  · rw [handleGetBuckBoostRegulator_eq]
    exact ⟨_, answers_nack p, out_sendNack ..⟩
  · rw [handleTxTestSignal_eq, if_pos rfl]
    cases hseq : testSignalFor p.payload d with
    | some seq =>
        obtain ⟨hne, hkeyed⟩ := testSignalFor_keyed hseq
        refine ⟨_, answers_ack p, ?_⟩
        rw [out_sendAck, out_start d hne, hkeyed, if_pos rfl, List.append_assoc]
    | none =>
        dsimp only
        split
        · exact ⟨_, answers_nack p, out_sendNack ..⟩
        · refine ⟨_, answers_nack p, ?_⟩
          rw [out_sendNack, out_sendDebugMessage, List.append_assoc]
  · rw [handleTrSwitch_eq]
    split
    · exact ⟨_, answers_ack p, out_sendAck ..⟩
    · split
      · exact ⟨_, answers_ack p, out_sendAck ..⟩
      · exact ⟨_, answers_nack p, out_sendNack ..⟩

/-! ## Exactly one reply -/

/-- The packets of a stretch of output that are no debug messages. -/
def replies (out : List Output) : List Packet :=
  out.filterMap fun
    | .packet p => if p.type = 0xFC then none else some p
    | .printk _ => none

/-- What the device puts out between two states. -/
def outputSince (d d' : Device) : List Output := d'.out.drop d.out.length

/-- A reply of type `t` is sent between two states. -/
def Replied (t : UInt8) (d d' : Device) : Prop :=
  ∃ reply ∈ replies (outputSince d d'), reply.type = t

theorem replies_preamble (p : Packet) (d : Device) : replies (preamble p d) = [] := by
  rw [preamble]
  split
  · split
    · rfl
    · split <;> rfl
  · rfl

/-- A reply shows, behind output that holds none. -/
theorem replied_iff {t : UInt8} {d d' : Device} {before : List Output} {reply : Packet}
    (hout : d'.out = d.out ++ (before ++ [.packet reply])) (hbefore : replies before = [])
    (hreply : reply.type ≠ 0xFC) : Replied t d d' ↔ reply.type = t := by
  have hsince : replies (outputSince d d') = [reply] := by
    rw [outputSince, hout, List.drop_left, replies, List.filterMap_append, ← replies, ← replies,
      hbefore]
    simp [replies, hreply]
  rw [Replied, hsince]
  simp

/-- No command has the type of the debug messages. -/
theorem Registered.type_ne {p : Packet} (h : Registered p) : p.type ≠ 0xFC := by
  intro htype
  rw [Registered, htype] at h
  exact absurd h (by decide)

theorem Answers.type_ne {p reply : Packet} (h : Answers p reply) (hreg : Registered p) :
    reply.type ≠ 0xFC := by
  rcases h.type with ht | ht | ht <;> rw [ht]
  · decide
  · decide
  · exact hreg.type_ne

theorem replies_dispatch {p reply : Packet} (hreg : Registered p) (h : Answers p reply)
    (d : Device) : replies (preamble p d ++ [.packet reply]) = [reply] := by
  have hlast : replies [.packet reply] = [reply] := by
    simp [replies, h.type_ne hreg]
  rw [replies, List.filterMap_append, ← replies, ← replies, replies_preamble, hlast,
    List.nil_append]

/--
**Exactly one reply.**

Whatever the driver calls return, a valid packet of a registered type other than
reset makes the device send one packet that is no debug message; it carries the
id of the request and is an ACK, a NACK or of the type of the request. A byte
string that fails the checks, or whose type has no entry, changes nothing at all.
-/
theorem one_reply (crc16Ccitt : UInt16 → List UInt8 → UInt16) (data : List UInt8) (d : Device) :
    (∀ p, checkPacket crc16Ccitt data = some p → Registered p → p.type ≠ 0xFD →
        ∃ sent reply, (d.parseDispatchPacket crc16Ccitt data).out = d.out ++ sent
          ∧ replies sent = [reply] ∧ reply.id = p.id
          ∧ (reply.type = 0xFF ∨ reply.type = 0xFE ∨ reply.type = p.type))
      ∧ ((∀ p, checkPacket crc16Ccitt data = some p → ¬ Registered p) →
          d.parseDispatchPacket crc16Ccitt data = d) := by
  rw [parseDispatchPacket]
  constructor
  · intro p hp hreg hreset
    obtain ⟨reply, hans, hout⟩ := dispatch_out hreg hreset d
    rw [hp]
    exact ⟨_, reply, hout, replies_dispatch hreg hans d, hans.id, hans.type⟩
  · intro hnone
    cases hp : checkPacket crc16Ccitt data with
    | none => rfl
    | some p => exact dispatch_unregistered (hnone p hp) d

theorem one_reply_rtc :
    let data := packetBytes Crc16.crc16 { type := 0x02, id := 7, payload := [] }
    let d := boot (fun _ => 0) ⟨126, 6, 4, 12, 30, 59⟩ 0 [-5]
    ∃ sent reply, (d.parseDispatchPacket Crc16.crc16 data).out = d.out ++ sent
      ∧ replies sent = [reply] ∧ reply.id = 7
      ∧ (reply.type = 0xFF ∨ reply.type = 0xFE ∨ reply.type = 0x02) :=
  (one_reply Crc16.crc16 _ (boot (fun _ => 0) ⟨126, 6, 4, 12, 30, 59⟩ 0 [-5])).1
    { type := 0x02, id := 7, payload := [] } (by decide +kernel) (by decide) (by decide)

end Device

end MiniHF
