import MiniHF.Protocol.PayloadProof
import MiniHF.Radio.RadioCmd

/-!
# What each handler does

One equation for each handler of `radio_cmd.c`, with the cursor and the writer
worked off: a payload is read at fixed offsets, and a reply is a byte list. What a
handler decides on its own (the length of the payload, the mode of the switch, the
duration of the test signal) is an `if`; what a driver decides stays a driver call.
`dispatch_cases` leads from the type of a packet to its handler.
-/

namespace MiniHF

open LittleEndian Interrupts Interrupts.Code

namespace Device

/-! ## The setting commands -/

/-- The time a 0x01 payload asks for. -/
def requestedTime (payload : List UInt8) : RtcTime where
  tmYear := ((UInt16.ofNat (leValue (payload.take 2))).toNat : Int) - 1900
  tmMon := ((payload.getD 2 0).toNat : Int) - 1
  tmMday := (payload.getD 3 0).toNat
  tmHour := (payload.getD 4 0).toNat
  tmMin := (payload.getD 5 0).toNat
  tmSec := (payload.getD 6 0).toNat

theorem handleRtcSetTime_eq (payload : List UInt8) (id : UInt16) (d : Device) :
    handleRtcSetTime payload id d
      = if payload.length < 7 then d.sendNack id
        else if (d.rtcSetTime (requestedTime payload)).1 = 0 then
          (d.rtcSetTime (requestedTime payload)).2.sendAck id
        else (d.rtcSetTime (requestedTime payload)).2.sendNack id := by
  rw [handleRtcSetTime]
  dsimp only
  by_cases hshort : payload.length < 7
  · rw [if_pos hshort]
    exact if_pos hshort
  · rw [if_neg hshort]
    refine (if_neg hshort).trans ?_
    rw [cursorInit_eq, cursorGetU16_at (by omega)]
    dsimp only
    rw [cursorGetU8_at (by omega)]
    dsimp only
    rw [cursorGetU8_at (by omega)]
    dsimp only
    rw [cursorGetU8_at (by omega)]
    dsimp only
    rw [cursorGetU8_at (by omega)]
    dsimp only
    rw [cursorGetU8_at (by omega)]
    rfl

/-- The frequency a 0x03 payload asks for, in hundredths of a hertz. -/
def requestedFreq (payload : List UInt8) : UInt64 := UInt64.ofNat (leValue (payload.take 8))

/-- The clamp picks the nearest frequency of the band. -/
theorem clampFrequency_toNat (freq : UInt64) :
    (clampFrequency freq).toNat = max (10100000 * 100) (min (10150000 * 100) freq.toNat) := by
  have hmin : band30mMinFreq.toNat = 10100000 * 100 := by decide
  have hmax : band30mMaxFreq.toNat = 10150000 * 100 := by decide
  rw [clampFrequency]
  simp only [UInt64.lt_iff_toNat_lt, gt_iff_lt]
  split
  · omega
  · split <;> omega

/-- In the band the clamp does nothing. -/
theorem clampFrequency_of_inBand {freq : UInt64} (hlow : 10100000 * 100 ≤ freq.toNat)
    (hhigh : freq.toNat ≤ 10150000 * 100) : clampFrequency freq = freq := by
  apply UInt64.toNat_inj.mp
  rw [clampFrequency_toNat]
  omega

theorem handleSetBaseFreq_eq (payload : List UInt8) (id : UInt16) (d : Device) :
    handleSetBaseFreq payload id d
      = if payload.length < 8 then d.sendNack id
        else { d with baseFrequency := clampFrequency (requestedFreq payload) }.sendAck id := by
  rw [handleSetBaseFreq]
  dsimp only
  by_cases hshort : payload.length < 8
  · rw [if_pos hshort]
    exact if_pos hshort
  · rw [if_neg hshort]
    refine (if_neg hshort).trans ?_
    rw [cursorInit_eq, cursorGetU64_at (by omega)]
    rfl

/-- Bit 7 of a 0x05 payload: the output is asked for. -/
def requestedOn (state : UInt8) : Bool := (state &&& 0x80) ≠ 0

/-- The voltage a 0x05 payload asks for, in microvolts. -/
def requestedMicrovolt (state : UInt8) : Int := (state &&& 0x1F).toNat * 1000000

/-- The call that switches the regulator. -/
def regulatorSwitch (d : Device) (on : Bool) : Int × Device :=
  if on then d.regulatorEnable else d.regulatorDisable

theorem handleSetBuckBoostRegulator_eq (payload : List UInt8) (id : UInt16) (d : Device) :
    handleSetBuckBoostRegulator payload id d
      = match payload with
        | [] => d.sendNack id
        | state :: _ =>
            (((d.regulatorSetVoltage (requestedMicrovolt state)).2.regulatorSwitch
              (requestedOn state)).2).sendAck id := by
  cases payload with
  | nil => rfl
  | cons state rest =>
      rw [handleSetBuckBoostRegulator]
      dsimp only
      rw [if_neg (by simp), cursorInit_eq, cursorGetU8_at (by simp)]
      simp only [List.getD_cons_zero, requestedMicrovolt, regulatorSwitch, requestedOn,
        decide_eq_true_eq]

theorem handleTrSwitch_eq (payload : List UInt8) (id : UInt16) (d : Device) :
    handleTrSwitch payload id d
      = if payload.head? = some 0 then d.trSetRx.sendAck id
        else if payload.head? = some 1 then d.trSetTx.sendAck id
        else d.sendNack id := by
  cases payload with
  | nil => rfl
  | cons mode rest =>
      rw [handleTrSwitch]
      dsimp only
      rw [if_neg (by simp), cursorInit_eq, cursorGetU8_at (by simp)]
      simp only [List.getD_cons_zero, List.head?_cons, Option.some.injEq]

/-- The duration a 0x07 payload asks for, in milliseconds. -/
def requestedDuration (payload : List UInt8) : UInt32 := UInt32.ofNat (leValue (payload.take 4))

/-- The sequence `handle_tx_test_signal` hands to `tx_engine_start`, if it gets that far. -/
def testSignalFor (payload : List UInt8) (d : Device) : Option TxSequence :=
  if d.txActive ∧ 4 ≤ payload.length ∧ requestedDuration payload ≠ 0 then
    some (testSignalSeq (requestedDuration payload) d.baseFrequency)
  else none

/-- The debug message of a refused test signal. -/
def notActiveText : String := "Cannot start test signal: TX engine is not active"

theorem handleTxTestSignal_eq (payload : List UInt8) (id : UInt16) (d : Device) :
    handleTxTestSignal payload id d
      = match testSignalFor payload d with
        | some seq => ((txEngineStart (some seq)).exec d).sendAck id
        | none =>
            if d.txActive then d.sendNack id else (d.sendDebugMessage notActiveText).sendNack id := by
  rw [handleTxTestSignal, testSignalFor]
  cases hactive : d.txActive with
  | false => rfl
  | true =>
      rw [if_neg (by simp)]
      dsimp only
      by_cases hshort : payload.length < 4
      · have hfar : ¬ (true = true ∧ 4 ≤ payload.length ∧ requestedDuration payload ≠ 0) := by
          omega
        rw [if_neg hfar]
        exact if_pos hshort
      · refine (if_neg hshort).trans ?_
        rw [cursorInit_eq, cursorGetU32_at (by omega)]
        dsimp only
        rw [show UInt32.ofNat (leValue ((payload.drop 0).take 4)) = requestedDuration payload from rfl,
          cursorAt_error, Bool.false_or]
        by_cases hzero : requestedDuration payload = 0
        · rw [if_pos (decide_eq_true hzero), if_neg (fun h => h.2.2 hzero)]
          rfl
        · rw [if_neg (by simpa using hzero), if_pos ⟨rfl, by omega, hzero⟩]

/-! ## The reading commands -/

/-- The reply to 0x02, for the time the clock gave. -/
def rtcBytes (tm : RtcTime) : List UInt8 :=
  leBytes 2 (UInt16.ofInt (tm.tmYear + 1900)).toNat
    ++ [UInt8.ofInt (tm.tmMon + 1), UInt8.ofInt tm.tmMday, UInt8.ofInt tm.tmHour,
      UInt8.ofInt tm.tmMin, UInt8.ofInt tm.tmSec]

theorem leBytes_one (b : UInt8) : leBytes 1 b.toNat = [b] := by
  rw [leBytes, leBytes, UInt8.ofNat_toNat]

@[simp] theorem result_rtcTime (d : Device) : d.result.2.rtcTime = d.rtcTime := by
  obtain ⟨_, h⟩ := d.result_touches
  rw [h]

theorem handleRtcGetTime_eq (payload : List UInt8) (id : UInt16) (d : Device) :
    handleRtcGetTime payload id d
      = if d.result.1 = 0 then d.result.2.sendPacket 0x02 (rtcBytes d.rtcTime) id
        else d.result.2.sendNack id := by
  rw [handleRtcGetTime]
  dsimp only [rtcGetTime]
  split
  · rfl
  · rename_i hret
    rw [if_pos (Classical.not_not.mp hret)]
    simp only [writerPutU16, writerPutU8, writerInit, leBytes_one, writerPut_room,
      Nat.reduceLeDiff, Nat.reduceSub, Bool.false_eq_true, if_false]
    rw [result_rtcTime]
    simp [rtcBytes]

theorem handleGetBaseFreq_eq (payload : List UInt8) (id : UInt16) (d : Device) :
    handleGetBaseFreq payload id d = d.sendPacket 0x04 (leBytes 8 d.baseFrequency.toNat) id := rfl

theorem handleGetBuckBoostRegulator_eq (payload : List UInt8) (id : UInt16) (d : Device) :
    handleGetBuckBoostRegulator payload id d = d.sendNack id := rfl

/-! ## From the packet to its handler -/

/-- The type of the packet has an entry in `cmd_table`. -/
def Registered (p : Packet) : Prop := p.type ∈ cmdTable.map (·.1)

instance (p : Packet) : Decidable (Registered p) :=
  inferInstanceAs (Decidable (p.type ∈ cmdTable.map (·.1)))

theorem dispatch_unregistered {p : Packet} (h : ¬ Registered p) (d : Device) :
    d.dispatch p = d := by
  have hfind : cmdTable.find? (·.1 == p.type) = none := by
    rw [List.find?_eq_none]
    intro entry hmem heq
    apply h
    rw [Registered, ← beq_iff_eq.mp heq]
    exact List.mem_map_of_mem hmem
  rw [dispatch, hfind]

/-- The loop over the table ends at the entry of the type. -/
theorem dispatch_of_mem {cmdId : UInt8} {handler : List UInt8 → UInt16 → Device → Device}
    (hmem : (cmdId, handler) ∈ cmdTable) {p : Packet} (htype : p.type = cmdId) (d : Device) :
    d.dispatch p = handler p.payload p.id d := by
  simp only [cmdTable, List.mem_cons, Prod.mk.injEq, List.not_mem_nil, or_false] at hmem
  rw [dispatch, htype]
  rcases hmem with ⟨rfl, rfl⟩ | ⟨rfl, rfl⟩ | ⟨rfl, rfl⟩ | ⟨rfl, rfl⟩ | ⟨rfl, rfl⟩ | ⟨rfl, rfl⟩
    | ⟨rfl, rfl⟩ | ⟨rfl, rfl⟩ | ⟨rfl, rfl⟩ <;> rfl

theorem dispatch_testSignal {p : Packet} (htype : p.type = 0x07) (d : Device) :
    d.dispatch p = handleTxTestSignal p.payload p.id d :=
  dispatch_of_mem (by simp [cmdTable]) htype d

theorem dispatch_reset {p : Packet} (htype : p.type = 0xFD) (d : Device) :
    d.dispatch p = handleReset p.payload p.id d :=
  dispatch_of_mem (by simp [cmdTable]) htype d

/-- A byte string does nothing, resets the device or holds a packet that is answered. -/
theorem parseDispatchPacket_cases (crc16Ccitt : UInt16 → List UInt8 → UInt16) (data : List UInt8)
    (d : Device) :
    d.parseDispatchPacket crc16Ccitt data = d
      ∨ (∃ p, checkPacket crc16Ccitt data = some p ∧ p.type = 0xFD
        ∧ d.parseDispatchPacket crc16Ccitt data = handleReset p.payload p.id d)
      ∨ ∃ p, checkPacket crc16Ccitt data = some p ∧ Registered p ∧ p.type ≠ 0xFD
        ∧ d.parseDispatchPacket crc16Ccitt data = d.dispatch p := by
  rw [parseDispatchPacket]
  cases hp : checkPacket crc16Ccitt data with
  | none => exact Or.inl rfl
  | some p =>
      dsimp only
      by_cases hreg : Registered p
      · by_cases hreset : p.type = 0xFD
        · exact Or.inr (Or.inl ⟨p, rfl, hreset, dispatch_reset hreset d⟩)
        · exact Or.inr (Or.inr ⟨p, rfl, hreg, hreset, rfl⟩)
      · exact Or.inl (dispatch_unregistered hreg d)

/-- **The commands that are answered**, and their handlers. -/
theorem dispatch_cases {p : Packet} (hreg : Registered p) (hreset : p.type ≠ 0xFD) (d : Device) :
    (p.type = 0x01 ∧ d.dispatch p = handleRtcSetTime p.payload p.id d)
    ∨ (p.type = 0x02 ∧ d.dispatch p = handleRtcGetTime p.payload p.id d)
    ∨ (p.type = 0x03 ∧ d.dispatch p = handleSetBaseFreq p.payload p.id d)
    ∨ (p.type = 0x04 ∧ d.dispatch p = handleGetBaseFreq p.payload p.id d)
    ∨ (p.type = 0x05 ∧ d.dispatch p = handleSetBuckBoostRegulator p.payload p.id d)
    ∨ (p.type = 0x06 ∧ d.dispatch p = handleGetBuckBoostRegulator p.payload p.id d)
    ∨ (p.type = 0x07 ∧ d.dispatch p = handleTxTestSignal p.payload p.id d)
    ∨ (p.type = 0x08 ∧ d.dispatch p = handleTrSwitch p.payload p.id d) := by
  obtain ⟨⟨cmdId, handler⟩, hmem, htype⟩ := List.mem_map.mp hreg
  rw [dispatch_of_mem hmem htype.symm d]
  simp only [cmdTable, List.mem_cons, Prod.mk.injEq, List.not_mem_nil, or_false] at hmem htype
  subst htype
  rcases hmem with ⟨h, rfl⟩ | ⟨h, rfl⟩ | ⟨h, rfl⟩ | ⟨h, rfl⟩ | ⟨h, rfl⟩ | ⟨h, rfl⟩ | ⟨h, rfl⟩
    | ⟨h, rfl⟩ | ⟨h, _⟩
  · exact .inl ⟨h, rfl⟩
  · exact .inr (.inl ⟨h, rfl⟩)
  · exact .inr (.inr (.inl ⟨h, rfl⟩))
  · exact .inr (.inr (.inr (.inl ⟨h, rfl⟩)))
  · exact .inr (.inr (.inr (.inr (.inl ⟨h, rfl⟩))))
  · exact .inr (.inr (.inr (.inr (.inr (.inl ⟨h, rfl⟩)))))
  · exact .inr (.inr (.inr (.inr (.inr (.inr (.inl ⟨h, rfl⟩))))))
  · exact .inr (.inr (.inr (.inr (.inr (.inr (.inr ⟨h, rfl⟩))))))
  · exact absurd h hreset

end Device

end MiniHF
