import MiniHF.Host.Api
import MiniHF.Host.CodecProof
import MiniHF.Radio.SettingsProof

/-!
# What was set is what is read

A time goes through four codecs: the library writes it, the handler reads it and
shifts year and month, the other handler shifts them back and writes it, and the
library reads it. A frequency of the band goes through the clamp as well. In
between lies any run that does not set the same thing again.
-/

namespace MiniHF.Host

open Device LittleEndian Runs

section Api

variable {crc16Ccitt : UInt16 → List UInt8 → UInt16} {crc16Kermit : List UInt8 → UInt16}

/-! ## One call -/

/-- **A call gets the reply of the handler.** -/
theorem transact_spec (hcrc : ∀ l, crc16Ccitt 0 l = crc16Kermit l) {p reply : Packet}
    (hlen : p.payload.length ≤ 255) (hreg : Registered p) (hans : Device.Answers p reply) {d : Device}
    (hout : (d.dispatch p).out = d.out ++ (preamble p d ++ [.packet reply])) :
    transact crc16Ccitt crc16Kermit d p.id p.type p.payload
      = ((resultOf reply).result, d.dispatch p) := by
  have hcheck := checkPacket_packetBytes crc16Ccitt hlen []
  rw [List.append_nil] at hcheck
  have hdispatch : d.parseDispatchPacket crc16Ccitt (packetBytes crc16Ccitt p) = d.dispatch p := by
    rw [parseDispatchPacket, hcheck]
  have hreplies : (replies (outputSince d (d.dispatch p))).find? (·.id = p.id) = some reply := by
    rw [outputSince, hout, List.drop_left, replies_dispatch hreg hans d, List.find?_cons_of_pos]
    simp [hans.id]
  rw [transact, buildPacket_eq hcrc p hlen]
  dsimp only
  rw [hdispatch, hreplies]

/-! ## The clock -/

/-- **`set_rtc_time` succeeds exactly where the driver takes the time.** -/
theorem setRtcTime_spec (hcrc : ∀ l, crc16Ccitt 0 l = crc16Kermit l) (d : Device) (pktId : UInt16)
    (time : RtcTime) :
    setRtcTime crc16Ccitt crc16Kermit d pktId time
      = (if d.supply.returns 0 = 0 then .ok () else .error .nack,
          d.dispatch { type := 0x01, id := pktId, payload := rtcTimePayload time }) := by
  let p : Packet := { type := 0x01, id := pktId, payload := rtcTimePayload time }
  have hlen : p.payload.length = 7 := rfl
  have hreg : Registered p := by simp [Registered, cmdTable, p]
  have hhandler : d.dispatch p = handleRtcSetTime p.payload p.id d := rfl
  rw [handleRtcSetTime_eq, if_neg (by omega), rtcSetTime_eq] at hhandler
  by_cases hret : d.supply.returns 0 = 0
  · rw [if_pos hret, if_pos rfl] at hhandler
    have hout : (d.dispatch p).out
        = d.out ++ (preamble p d ++ [.packet { type := 0xFF, id := p.id, payload := [] }]) := by
      rw [hhandler, out_sendAck]
      rfl
    have hcall := transact_spec hcrc (by omega) hreg (answers_ack p) hout
    rw [setRtcTime, show transact _ _ d pktId 0x01 (rtcTimePayload time) = _ from hcall, if_pos hret]
    rfl
  · rw [if_neg hret, if_neg hret] at hhandler
    have hout : (d.dispatch p).out
        = d.out ++ (preamble p d ++ [.packet { type := 0xFE, id := p.id, payload := [] }]) := by
      rw [hhandler, out_sendNack]
      rfl
    have hcall := transact_spec hcrc (by omega) hreg (answers_nack p) hout
    rw [setRtcTime, show transact _ _ d pktId 0x01 (rtcTimePayload time) = _ from hcall, if_neg hret]
    rfl

/-- **`get_rtc_time` gives the time of the clock**, if the driver does. -/
theorem getRtcTime_spec (hcrc : ∀ l, crc16Ccitt 0 l = crc16Kermit l) (d : Device) (pktId : UInt16) :
    (getRtcTime crc16Ccitt crc16Kermit d pktId).1
      = if d.supply.returns 0 = 0 then decodeRtcTime (rtcBytes d.rtcTime) else .error .nack := by
  let p : Packet := { type := 0x02, id := pktId, payload := [] }
  have hreg : Registered p := by simp [Registered, cmdTable, p]
  have hhandler : d.dispatch p = handleRtcGetTime p.payload p.id d := rfl
  have hshort : (rtcBytes d.rtcTime).length ≤ 255 := by simp [rtcBytes]
  rw [handleRtcGetTime_eq, result_eq] at hhandler
  dsimp only at hhandler
  by_cases hret : d.supply.returns 0 = 0
  · rw [if_pos hret] at hhandler
    have hout : (d.dispatch p).out = d.out ++ (preamble p d
        ++ [.packet { type := 0x02, id := p.id, payload := rtcBytes d.rtcTime }]) := by
      rw [hhandler, out_sendPacket _ hshort]
      rfl
    have hans : Device.Answers p { type := 0x02, id := p.id, payload := rtcBytes d.rtcTime } :=
      ⟨rfl, Or.inr (Or.inr rfl), hshort⟩
    have hcall := transact_spec hcrc (by simp [p]) hreg hans hout
    rw [getRtcTime, show transact _ _ d pktId 0x02 [] = _ from hcall, if_pos hret]
    rfl
  · rw [if_neg hret] at hhandler
    have hout : (d.dispatch p).out
        = d.out ++ (preamble p d ++ [.packet { type := 0xFE, id := p.id, payload := [] }]) := by
      rw [hhandler, out_sendNack]
      rfl
    have hcall := transact_spec hcrc (by simp [p]) hreg (answers_nack p) hout
    rw [getRtcTime, show transact _ _ d pktId 0x02 [] = _ from hcall, if_neg hret]
    rfl

theorem ofInt_byte (b : UInt8) : UInt8.ofInt b.toNat = b := by
  have hlt := b.toNat_lt
  have hmod : ((b.toNat : Int) % 2 ^ 8).toNat = b.toNat := by omega
  rw [UInt8.ofInt, hmod, UInt8.ofNat_toNat]

theorem ofInt_half (v : UInt16) : UInt16.ofInt v.toNat = v := by
  have hlt := v.toNat_lt
  have hmod : ((v.toNat : Int) % 2 ^ 16).toNat = v.toNat := by omega
  rw [UInt16.ofInt, hmod, UInt16.ofNat_toNat]

/-- **A time comes through the four codecs unchanged**, whatever its fields hold. -/
theorem decodeRtcTime_rtcBytes (time : RtcTime) :
    decodeRtcTime (rtcBytes (requestedTime (rtcTimePayload time))) = .ok time := by
  have hyear : UInt16.ofNat (leValue (leBytes 2 time.year.toNat)) = time.year := by
    have hlt : time.year.toNat < leRange 2 := time.year.toNat_lt
    rw [leValue_leBytes, Nat.mod_eq_of_lt hlt, UInt16.ofNat_toNat]
  have hback : ∀ n : Nat, (n : Int) - 1900 + 1900 = n := by omega
  have hback' : ∀ n : Nat, (n : Int) - 1 + 1 = n := by omega
  have hfields : requestedTime (rtcTimePayload time)
      = { tmYear := (time.year.toNat : Int) - 1900, tmMon := (time.month.toNat : Int) - 1
          tmMday := time.day.toNat, tmHour := time.hour.toNat, tmMin := time.minute.toNat
          tmSec := time.second.toNat } := by
    have htake : (rtcTimePayload time).take 2 = leBytes 2 time.year.toNat := rfl
    rw [requestedTime, htake, hyear]
    rfl
  have hbytes : rtcBytes (requestedTime (rtcTimePayload time)) = rtcTimePayload time := by
    rw [hfields, rtcBytes, rtcTimePayload]
    simp only [hback, hback', ofInt_byte, ofInt_half, List.append_assoc, List.cons_append,
      List.nil_append]
  have hwidth : ¬ (rtcTimePayload time).length < 7 := by simp [rtcTimePayload]
  rw [hbytes, decodeRtcTime, if_neg hwidth]
  have hpair : [(rtcTimePayload time).getD 0 0, (rtcTimePayload time).getD 1 0]
      = leBytes 2 time.year.toNat := rfl
  rw [hpair, hyear]
  rfl

/-! ## The base frequency -/

/-- **`get_base_freq` gives the base frequency.** -/
theorem getBaseFreq_spec (hcrc : ∀ l, crc16Ccitt 0 l = crc16Kermit l) (d : Device)
    (pktId : UInt16) : (getBaseFreq crc16Ccitt crc16Kermit d pktId).1 = .ok d.baseFrequency := by
  let p : Packet := { type := 0x04, id := pktId, payload := [] }
  have hreg : Registered p := by simp [Registered, cmdTable, p]
  have hshort : (leBytes 8 d.baseFrequency.toNat).length ≤ 255 := by simp
  have hout : (d.dispatch p).out = d.out ++ (preamble p d
      ++ [.packet { type := 0x04, id := p.id, payload := leBytes 8 d.baseFrequency.toNat }]) :=
    d.out_sendPacket hshort
  have hans : Device.Answers p
      { type := 0x04, id := p.id, payload := leBytes 8 d.baseFrequency.toNat } :=
    ⟨rfl, Or.inr (Or.inr rfl), hshort⟩
  have hcall := transact_spec hcrc (by simp [p]) hreg hans hout
  have hlt : d.baseFrequency.toNat < leRange 8 := d.baseFrequency.toNat_lt
  have hdecode : decodeBaseFreq (leBytes 8 d.baseFrequency.toNat) = .ok d.baseFrequency := by
    rw [decodeBaseFreq, if_neg (by simp), List.take_of_length_le (by simp), leValue_leBytes,
      Nat.mod_eq_of_lt hlt, UInt64.ofNat_toNat]
  rw [getBaseFreq, show transact _ _ d pktId 0x04 [] = _ from hcall]
  exact hdecode

/-- A frequency of the band is set as it is. -/
theorem baseFrequency_set {n : UInt64} (hlow : 10100000 * 100 ≤ n.toNat)
    (hhigh : n.toNat ≤ 10150000 * 100) (d : Device) (pktId : UInt16) :
    (d.dispatch { type := 0x03, id := pktId, payload := baseFreqPayload n }).baseFrequency = n := by
  have hlt : n.toNat < leRange 8 := n.toNat_lt
  have hrequested : requestedFreq (baseFreqPayload n) = n := by
    rw [requestedFreq, baseFreqPayload, List.take_of_length_le (by simp), leValue_leBytes,
      Nat.mod_eq_of_lt hlt, UInt64.ofNat_toNat]
  have hreg : Registered { type := 0x03, id := pktId, payload := baseFreqPayload n } := by
    simp [Registered, cmdTable]
  have hs := congrArg Settings.baseFrequency (settings_dispatch hreg (by simp) d)
  dsimp only [settings] at hs
  rw [hs, if_pos ⟨rfl, by simp [baseFreqPayload]⟩, hrequested, clampFrequency_of_inBand hlow hhigh]

/--
**What was set is what is read.**

After a `set_rtc_time` that succeeded, and any run without another clock command or
a reset, `get_rtc_time` gives the same six fields, unless the driver refuses to
read; and after a frequency of the band was sent, and any run without another, the
0x04 reply decodes to that frequency.
-/
theorem set_then_get (hcrc : ∀ l, crc16Ccitt 0 l = crc16Kermit l) (d : Device)
    (es : List DeviceEvent) (pktId pktId' : UInt16) :
    (∀ time : RtcTime, (setRtcTime crc16Ccitt crc16Kermit d pktId time).1 = .ok () →
        (∀ e ∈ es, Spares crc16Ccitt 0x01 e) →
        let d' := run (deviceStep crc16Ccitt) (setRtcTime crc16Ccitt crc16Kermit d pktId time).2 es
        (getRtcTime crc16Ccitt crc16Kermit d' pktId').1
          = if d'.rtcGetTime.1 = 0 then .ok time else .error .nack)
      ∧ ∀ n : UInt64, 10100000 * 100 ≤ n.toNat → n.toNat ≤ 10150000 * 100 →
        (∀ e ∈ es, Spares crc16Ccitt 0x03 e) →
        let d' := run (deviceStep crc16Ccitt)
          (transact crc16Ccitt crc16Kermit d pktId 0x03 (baseFreqPayload n)).2 es
        (getBaseFreq crc16Ccitt crc16Kermit d' pktId').1 = .ok n := by
  constructor
  · intro time hack hspares d'
    let p : Packet := { type := 0x01, id := pktId, payload := rtcTimePayload time }
    have hreg : Registered p := by simp [Registered, cmdTable, p]
    have hd' : d' = run (deviceStep crc16Ccitt) (d.dispatch p) es := by
      show run _ (setRtcTime _ _ d pktId time).2 es = _
      rw [setRtcTime_spec hcrc]
    have hclock : clockSet p d := by
      rw [setRtcTime_spec hcrc] at hack
      refine ⟨Nat.le_refl 7, ?_⟩
      by_cases hret : d.supply.returns 0 = 0
      · exact hret
      · rw [if_neg hret] at hack
        cases hack
    have hset := congrArg Settings.rtcTime (settings_dispatch hreg (by simp [p]) d)
    dsimp only [settings] at hset
    rw [if_pos ⟨rfl, hclock⟩] at hset
    have hkept := (kept_run hspares (d.dispatch p)).1 rfl
    have hread : d'.rtcGetTime.1 = d'.supply.returns 0 := by rw [rtcGetTime, result_eq]
    rw [getRtcTime_spec hcrc, hread, hd', hkept, hset]
    rw [decodeRtcTime_rtcBytes]
  · intro n hlow hhigh hspares d'
    let p : Packet := { type := 0x03, id := pktId, payload := baseFreqPayload n }
    have hreg : Registered p := by simp [Registered, cmdTable, p]
    obtain ⟨reply, hans, hout⟩ := dispatch_out hreg (by simp [p]) d
    have hcall := transact_spec hcrc (by simp [p, baseFreqPayload]) hreg hans hout
    have hd' : d' = run (deviceStep crc16Ccitt) (d.dispatch p) es := by
      show run _ (transact _ _ d p.id p.type p.payload).2 es = _
      rw [hcall]
    have hkept := (kept_run hspares (d.dispatch p)).2 rfl
    rw [getBaseFreq_spec hcrc, hd', hkept, baseFrequency_set hlow hhigh]

end Api

/-- A time set and read with a relay command and a run of the work queue in between. -/
theorem set_then_get_relays :
    let time : RtcTime := ⟨2026, 7, 4, 12, 30, 59⟩
    let d := boot (fun _ => 0) ⟨0, 0, 0, 0, 0, 0⟩ 0 [0, -5]
    let es := [.receive (packetBytes Crc16.crc16 { type := 0x08, id := 2, payload := [1] }), .work]
    let d' := run (deviceStep Crc16.crc16)
      (setRtcTime Crc16.crc16 (Crc16.crc16 0) d 1 time).2 es
    (getRtcTime Crc16.crc16 (Crc16.crc16 0) d' 3).1
      = if d'.rtcGetTime.1 = 0 then .ok time else .error .nack := by
  have hcheck : checkPacket Crc16.crc16
      (packetBytes Crc16.crc16 { type := 0x08, id := 2, payload := [1] })
      = some { type := 0x08, id := 2, payload := [1] } := by decide +kernel
  refine (set_then_get (fun _ => rfl) (boot (fun _ => 0) ⟨0, 0, 0, 0, 0, 0⟩ 0 [0, -5]) _ 1 3).1
    ⟨2026, 7, 4, 12, 30, 59⟩ ?_ (fun e he => ?_)
  · rw [setRtcTime_spec fun _ => rfl]
    rfl
  · rcases List.mem_cons.mp he with rfl | he
    · intro p hp
      rw [hcheck, Option.some.injEq] at hp
      rw [← hp]
      exact ⟨by decide, by decide⟩
    · rw [List.mem_singleton.mp he]
      trivial

end MiniHF.Host
