import MiniHF.Host.CodecProof
import MiniHF.Lib.Crc16
import MiniHF.Radio.RadioCmd

/-!
# Corrupted packets are rejected

The CRC goes low byte first right behind what it covers, so a whole packet has the
CRC 0. A change that leaves the length byte alone leaves the parsers reading the
same bytes as body and CRC. If they accepted, both strings would have the CRC 0,
and a window of two bytes determines itself.
-/

namespace MiniHF.Host

open LittleEndian

section Corruption

variable (crc16Ccitt : UInt16 → List UInt8 → UInt16) (crc16Kermit : List UInt8 → UInt16)

/-- A raw packet that `send_packet` or `build_packet` builds. -/
def Built (raw : List UInt8) : Prop :=
  (∃ junk cmdId payload id, payload.length ≤ 255
      ∧ sendPacketRaw crc16Ccitt junk cmdId payload id = .ok raw)
    ∨ ∃ cmdId pktId payload, buildPacket crc16Kermit cmdId pktId payload = some raw

/-- A change of the bytes `i` and `i + 1` at most. -/
structure Corrupted (i : Nat) (raw raw' : List UInt8) : Prop where
  length : raw'.length = raw.length
  changed : raw' ≠ raw
  elsewhere : ∀ j, j ≠ i → j ≠ i + 1 → raw'[j]? = raw[j]?
  /-- The length byte is not among the bytes changed. -/
  lengthByte : raw'[4]? = raw[4]?

variable {crc16Ccitt crc16Kermit}
variable (hccitt : ∀ l, crc16Ccitt 0 l = Crc16.crc16 0 l)
variable (hkermit : ∀ l, crc16Kermit l = Crc16.crc16 0 l)

include hccitt in
/-- **A whole packet has the CRC 0.** -/
theorem crc16_packetBytes (p : Packet) : Crc16.crc16 0 (packetBytes crc16Ccitt p) = 0 := by
  have hput : ∀ v : UInt16, putLe16 v = [v.toUInt8, (v >>> 8).toUInt8] := by
    intro v
    have hhigh : (v >>> 8).toUInt8 = UInt8.ofNat (v.toNat / 256) := by
      apply UInt8.toNat_inj.mp
      rw [UInt16.toNat_toUInt8, UInt16.toNat_shiftRight, UInt8.toNat_ofNat',
        show (8 : UInt16).toNat % 16 = 8 from rfl, Nat.shiftRight_eq_div_pow]
    rw [putLe16, leBytes, leBytes, leBytes, hhigh]
    rfl
  rw [packetBytes, Crc16.crc16_append, hccitt, hput]
  exact Crc16.crc16_self _

include hccitt hkermit in
/-- Both builders make the packet layout. -/
theorem built_iff {raw : List UInt8} :
    Built crc16Ccitt crc16Kermit raw
      ↔ ∃ p : Packet, p.payload.length ≤ 255 ∧ raw = packetBytes crc16Ccitt p := by
  have hcrc : ∀ l, crc16Ccitt 0 l = crc16Kermit l := fun l => by rw [hccitt, hkermit]
  constructor
  · rintro (⟨junk, cmdId, payload, id, hlen, hraw⟩ | ⟨cmdId, pktId, payload, hraw⟩)
    · rw [sendPacketRaw_spec crc16Ccitt junk ⟨cmdId, id, payload⟩ hlen, Except.ok.injEq] at hraw
      exact ⟨⟨cmdId, id, payload⟩, hlen, hraw.symm⟩
    · exact ⟨⟨cmdId, pktId, payload⟩, (@buildPacket_eq_some _ _ hcrc ⟨cmdId, pktId, payload⟩ _).mp hraw⟩
  · rintro ⟨p, hlen, rfl⟩
    exact Or.inr ⟨p.type, p.id, p.payload, buildPacket_eq hcrc p hlen⟩

/-- The length byte of a packet is the length of its payload. -/
theorem payload_length_of_lengthByte {p q : Packet} (hp : p.payload.length ≤ 255)
    (hq : q.payload.length ≤ 255)
    (h : (packetBytes crc16Ccitt p)[4]? = (packetBytes crc16Ccitt q)[4]?) :
    p.payload.length = q.payload.length := by
  have hbyte : UInt8.ofNat p.payload.length = UInt8.ofNat q.payload.length := Option.some.inj h
  have hnat := congrArg UInt8.toNat hbyte
  rwa [UInt8.toNat_ofNat_of_lt' (by simp [UInt8.size]; omega),
    UInt8.toNat_ofNat_of_lt' (by simp [UInt8.size]; omega)] at hnat

include hccitt hkermit in
/--
**A change of one byte, or of two adjacent bytes, is noticed.**

Whatever the packet and wherever the change, as long as the length byte is not
part of it: the device drops the string, and the host's parser gives nothing.
-/
theorem corruption_rejected {raw raw' : List UInt8} {i : Nat}
    (hbuilt : Built crc16Ccitt crc16Kermit raw) (h : Corrupted i raw raw') :
    checkPacket crc16Ccitt raw' = none
      ∧ (∀ d : Device, d.parseDispatchPacket crc16Ccitt raw' = d)
      ∧ parsePacket crc16Kermit raw' = none := by
  have hcrc : ∀ l, crc16Ccitt 0 l = crc16Kermit l := fun l => by rw [hccitt, hkermit]
  obtain ⟨p, hp, rfl⟩ := (built_iff hccitt hkermit).mp hbuilt
  have hnone : checkPacket crc16Ccitt raw' = none := by
    rw [Option.eq_none_iff_forall_ne_some]
    intro q hq
    obtain ⟨hqlen, hpre⟩ := (checkPacket_eq_some crc16Ccitt).mp hq
    -- the string would be a packet as long as the one that was built
    have hbyte : (packetBytes crc16Ccitt q)[4]? = (packetBytes crc16Ccitt p)[4]? := by
      have hlt : 4 < (packetBytes crc16Ccitt q).length := by
        rw [packetBytes_length, packetSize]
        omega
      rw [← h.lengthByte, List.prefix_iff_getElem?.mp hpre 4 hlt, List.getElem?_eq_getElem hlt]
    have hsame := payload_length_of_lengthByte hqlen hp hbyte
    have hraw : packetBytes crc16Ccitt q = raw' := by
      apply hpre.eq_of_length
      rw [h.length, packetBytes_length, packetBytes_length, hsame]
    have hzero : Crc16.crc16 0 raw' = Crc16.crc16 0 (packetBytes crc16Ccitt p) := by
      rw [← hraw, crc16_packetBytes hccitt, crc16_packetBytes hccitt]
    exact h.changed (Crc16.crc16_eq_of_window h.length h.elsewhere hzero)
  refine ⟨hnone, fun d => ?_, by rw [parsePacket_eq hcrc, hnone]⟩
  rw [Device.parseDispatchPacket, hnone]

end Corruption

/-- A flip in the last byte of the payload and one in the first byte of the CRC. -/
theorem corruption_rejected_straddling :
    let raw' : List UInt8 := [0xAA, 0x08, 0x02, 0x00, 0x01, 0x00, 0xCA, 0xC2]
    checkPacket Crc16.crc16 raw' = none
      ∧ (∀ d : Device, d.parseDispatchPacket Crc16.crc16 raw' = d)
      ∧ parsePacket (Crc16.crc16 0) raw' = none := by
  refine @corruption_rejected Crc16.crc16 (Crc16.crc16 0) (fun _ => rfl) (fun _ => rfl)
    [0xAA, 0x08, 0x02, 0x00, 0x01, 0x01, 0xCB, 0xC2] _ 5
    (Or.inr ⟨0x08, 2, [0x01], by decide +kernel⟩) ⟨rfl, by decide, fun j hj hj' => ?_, rfl⟩
  rcases Nat.lt_or_ge j 8 with hlt | hge
  · have hall : ∀ j < 8, j ≠ 5 → j ≠ 5 + 1 →
        ([0xAA, 0x08, 0x02, 0x00, 0x01, 0x00, 0xCA, 0xC2] : List UInt8)[j]?
          = ([0xAA, 0x08, 0x02, 0x00, 0x01, 0x01, 0xCB, 0xC2] : List UInt8)[j]? := by decide
    exact hall j hlt hj hj'
  · rw [List.getElem?_eq_none hge, List.getElem?_eq_none hge]

end MiniHF.Host
