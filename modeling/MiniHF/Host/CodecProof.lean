import MiniHF.Host.Codec
import MiniHF.Protocol.PacketProof

/-!
# Host and device speak the same packet format

The builders produce one layout, and the parsers make the same checks in the same
order, so that `parse_packet` is `checkPacket` read through the assumption that
the two CRC functions are one.
-/

namespace MiniHF.Host

open LittleEndian

section Codec

variable {crc16Ccitt : UInt16 → List UInt8 → UInt16} {crc16Kermit : List UInt8 → UInt16}

/-- The host builds the device's layout. -/
theorem buildPacket_eq (hcrc : ∀ l, crc16Ccitt 0 l = crc16Kermit l) (p : Packet)
    (hlen : p.payload.length ≤ 255) :
    buildPacket crc16Kermit p.type p.id p.payload = some (packetBytes crc16Ccitt p) := by
  rw [buildPacket, if_pos hlen, packetBytes, hcrc]
  rfl

theorem buildPacket_eq_some (hcrc : ∀ l, crc16Ccitt 0 l = crc16Kermit l) {p : Packet}
    {raw : List UInt8} :
    buildPacket crc16Kermit p.type p.id p.payload = some raw
      ↔ p.payload.length ≤ 255 ∧ raw = packetBytes crc16Ccitt p := by
  by_cases hlen : p.payload.length ≤ 255
  · rw [buildPacket_eq hcrc p hlen]
    simp [hlen, eq_comm]
  · rw [buildPacket, if_neg hlen]
    simp [hlen]

/-- The two parsers make the same decision on every byte string. -/
theorem parsePacket_eq (hcrc : ∀ l, crc16Ccitt 0 l = crc16Kermit l) (raw : List UInt8) :
    parsePacket crc16Kermit raw = checkPacket crc16Ccitt raw := by
  simp only [parsePacket, checkPacket, headerSize, headerByte, packetSize, hcrc, getLe16,
    List.drop_take, Nat.add_sub_cancel_left]

/--
**Host and device codecs agree.**

What the device builds, the host builds; and on every byte string the host's
parser and the device's checks give the same answer, which is a packet exactly
when the string starts with one.
-/
theorem codecs_agree (hcrc : ∀ l, crc16Ccitt 0 l = crc16Kermit l) :
    (∀ (junk : ∀ n, Vector UInt8 n) (type : UInt8) (id : UInt16) (payload : List UInt8),
        payload.length ≤ 255 →
        ∃ raw, sendPacketRaw crc16Ccitt junk type payload id = .ok raw
          ∧ buildPacket crc16Kermit type id payload = some raw)
      ∧ (∀ (data : List UInt8) (p : Packet),
          parsePacket crc16Kermit data = some p ↔ checkPacket crc16Ccitt data = some p)
      ∧ ∀ (data : List UInt8) (p : Packet),
          parsePacket crc16Kermit data = some p
            ↔ ∃ raw, buildPacket crc16Kermit p.type p.id p.payload = some raw ∧ raw <+: data := by
  refine ⟨?_, ?_, ?_⟩
  · intro junk type id payload hlen
    exact ⟨_, sendPacketRaw_spec crc16Ccitt junk ⟨type, id, payload⟩ hlen,
      buildPacket_eq hcrc ⟨type, id, payload⟩ hlen⟩
  · intro data p
    rw [parsePacket_eq hcrc]
  · intro data p
    rw [parsePacket_eq hcrc, checkPacket_eq_some]
    constructor
    · rintro ⟨hlen, hprefix⟩
      exact ⟨_, buildPacket_eq hcrc p hlen, hprefix⟩
    · rintro ⟨raw, hraw, hprefix⟩
      obtain ⟨hlen, rfl⟩ := (buildPacket_eq_some hcrc).mp hraw
      exact ⟨hlen, hprefix⟩

end Codec

/-- Both build the same packet, and both find it in front of a byte that is left over. -/
theorem codecs_agree_kermit :
    let p : Packet := { type := 0x08, id := 2, payload := [0x01] }
    let data : List UInt8 := [0xAA, 0x08, 0x02, 0x00, 0x01, 0x01, 0xCB, 0xC2, 0x55]
    (∃ raw, sendPacketRaw Crc16.crc16 (fun n => Vector.replicate n 0) p.type p.payload p.id = .ok raw
        ∧ buildPacket (Crc16.crc16 0) p.type p.id p.payload = some raw)
      ∧ parsePacket (Crc16.crc16 0) data = some p ∧ checkPacket Crc16.crc16 data = some p := by
  intro p data
  obtain ⟨hbuilds, hsame, hstarts⟩ :=
    @codecs_agree Crc16.crc16 (Crc16.crc16 0) (fun _ => rfl)
  have hparsed : parsePacket (Crc16.crc16 0) data = some p :=
    (hstarts data p).mpr ⟨data.take 8, by decide +kernel, List.take_prefix 8 data⟩
  exact ⟨hbuilds _ p.type p.id p.payload (by decide), hparsed, (hsame data p).mp hparsed⟩

end MiniHF.Host
