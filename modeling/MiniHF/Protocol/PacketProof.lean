import MiniHF.Lib.Crc16
import MiniHF.Protocol.CobsProof
import MiniHF.Protocol.Packet

/-!
# The packet layout and the frame on the wire

`packetBytes` is the layout as a list: header, type, id, length, payload and CRC.
`sendPacketRaw` builds it in its buffer, whatever the stack held, and
`checkPacket` accepts exactly the byte strings that start with one.
-/

namespace MiniHF

open Buffer LittleEndian

theorem getLe16_eq {data : List UInt8} {i : Nat} {v : UInt16}
    (h : [data.getD i 0, data.getD (i + 1) 0] = putLe16 v) : getLe16 data i = v := by
  rw [getLe16, h, putLe16, leValue_leBytes]
  have hlt : v.toNat < leRange 2 := v.toNat_lt
  rw [Nat.mod_eq_of_lt hlt, UInt16.ofNat_toNat]

theorem putLe16_getLe16 (data : List UInt8) (i : Nat) :
    putLe16 (getLe16 data i) = [data.getD i 0, data.getD (i + 1) 0] := by
  have hlt := leValue_lt [data.getD i 0, data.getD (i + 1) 0]
  rw [putLe16, getLe16, UInt16.toNat_ofNat_of_lt' hlt]
  exact leBytes_leValue [_, _]

@[simp] theorem putLe16_length (v : UInt16) : (putLe16 v).length = 2 := leBytes_length 2 _

/-- Header, type, id, length and payload: what the CRC covers. -/
def packetBody (p : Packet) : List UInt8 :=
  [0xAA, p.type] ++ putLe16 p.id ++ [UInt8.ofNat p.payload.length] ++ p.payload

section Device

variable (crc16Ccitt : UInt16 → List UInt8 → UInt16)

/-- The whole packet: its body and the CRC of the body. -/
def packetBytes (p : Packet) : List UInt8 :=
  packetBody p ++ putLe16 (crc16Ccitt 0 (packetBody p))

@[simp] theorem packetBody_length (p : Packet) :
    (packetBody p).length = packetSize + p.payload.length := by
  simp [packetBody, packetSize]
  omega

@[simp] theorem packetBytes_length (p : Packet) :
    (packetBytes crc16Ccitt p).length = packetSize + p.payload.length + 2 := by
  simp [packetBytes]

/-- **`send_packet` builds the packet layout**, and stays inside `buf`. -/
theorem sendPacketRaw_spec (junk : ∀ n, Vector UInt8 n) (p : Packet)
    (hlen : p.payload.length ≤ 255) :
    sendPacketRaw crc16Ccitt junk p.type p.payload p.id = .ok (packetBytes crc16Ccitt p) := by
  -- every store goes right behind what has been written
  obtain ⟨b₁, h₁, w₁⟩ := store_snoc (n := packetSize + 255 + 2) 0xAA
    (written_nil (junk _)) (by simp [packetSize])
  obtain ⟨b₂, h₂, w₂⟩ := store_snoc p.type w₁ (by simp [packetSize])
  obtain ⟨b₃, h₃, w₃⟩ := memcpy_snoc (putLe16 p.id) w₂ (by simp [packetSize])
  obtain ⟨b₄, h₄, w₄⟩ := store_snoc (UInt8.ofNat p.payload.length) w₃ (by simp [packetSize])
  obtain ⟨b₅, h₅, w₅⟩ := memcpy_snoc p.payload w₄ (by simp [packetSize]; omega)
  have w₅' : Written b₅ (packetBody p) := by simpa [packetBody] using w₅
  have hbody : b₅.toList.take (packetSize + p.payload.length) = packetBody p := by
    rw [← packetBody_length]; exact w₅'.take
  obtain ⟨b₆, h₆, w₆⟩ := memcpy_snoc (putLe16 (crc16Ccitt 0 (packetBody p))) w₅'
    (by simp [packetSize]; omega)
  have hraw : b₆.toList.take (packetSize + p.payload.length + 2) = packetBytes crc16Ccitt p := by
    rw [← packetBytes_length]; exact w₆.take
  simp only [List.nil_append, List.length_nil, List.length_append, List.length_cons,
    putLe16_length, packetBody_length, Nat.zero_add, Nat.reduceAdd] at h₁ h₂ h₃ h₄ h₅ h₆
  rw [sendPacketRaw]
  dsimp only
  rw [h₁, ok_bind, h₂, ok_bind, h₃, ok_bind, h₄, ok_bind]
  rw [show memcpy b₄ packetSize p.payload = .ok b₅ from h₅, ok_bind]
  rw [hbody, h₆, ok_bind, hraw]
  rfl

/-- The frame a packet travels in: its COBS form and the delimiter. -/
def frame (p : Packet) : List UInt8 := cobs (packetBytes crc16Ccitt p) ++ [0]

/-- **`send_packet` sends the frame of the packet**, and stays inside both buffers. -/
theorem sendPacket_spec (junk : ∀ n, Vector UInt8 n) (p : Packet)
    (hlen : p.payload.length ≤ 255) :
    sendPacket crc16Ccitt junk p.type p.payload p.id = .ok (some (frame crc16Ccitt p)) := by
  have hcobs := cobs_length (packetBytes crc16Ccitt p)
  have hraw := packetBytes_length crc16Ccitt p
  obtain ⟨b₁, h₁, w₁⟩ := cobsEncode_spec (n := (packetBytes crc16Ccitt p).length + 2 + 1)
    (packetBytes crc16Ccitt p) (junk _) (by rw [packetSize] at hraw; omega)
  obtain ⟨b₂, h₂, w₂⟩ := store_snoc 0x00 w₁ (by rw [packetSize] at hraw; omega)
  rw [sendPacket, if_neg (by omega), sendPacketRaw_spec crc16Ccitt junk p hlen, ok_bind]
  dsimp only
  rw [h₁, ok_bind]
  dsimp only
  rw [h₂, ok_bind]
  have htake := w₂.take
  rw [List.length_append, List.length_singleton] at htake
  rw [htake]
  rfl

/-- A string with room for a header, taken apart. -/
theorem exists_header {data : List UInt8} (h : packetSize ≤ data.length) :
    ∃ b₀ b₁ b₂ b₃ b₄ rest, data = b₀ :: b₁ :: b₂ :: b₃ :: b₄ :: rest := by
  match data, h with
  | b₀ :: b₁ :: b₂ :: b₃ :: b₄ :: rest, _ => exact ⟨b₀, b₁, b₂, b₃, b₄, rest, rfl⟩
  | [], h | [_], h | [_, _], h | [_, _, _], h | [_, _, _, _], h => simp [packetSize] at h

/-- Two bytes at an index inside the string, taken apart. -/
theorem drop_eq_pair {data : List UInt8} {i : Nat} (h : i + 2 ≤ data.length) :
    data.drop i = [data.getD i 0, data.getD (i + 1) 0] ++ data.drop (i + 2) := by
  rw [List.drop_eq_getElem_cons (by omega), List.drop_eq_getElem_cons (by omega)]
  simp [List.getD_eq_getElem?_getD, List.getElem?_eq_getElem (show i < data.length by omega),
    List.getElem?_eq_getElem (show i + 1 < data.length by omega)]

/-- A string that passes the checks starts with the packet it was read as. -/
theorem packetBytes_of_checkPacket {data : List UInt8} {p : Packet}
    (h : checkPacket crc16Ccitt data = some p) :
    p.payload.length ≤ 255 ∧ packetBytes crc16Ccitt p <+: data := by
  rw [checkPacket] at h
  split at h
  · simp at h
  rename_i hmin
  split at h
  · simp at h
  rename_i hheader
  dsimp only at h
  split at h
  · simp at h
  rename_i hlong
  split at h
  · simp at h
  rename_i hcrc
  simp only [ne_eq, Decidable.not_not] at hheader hcrc
  -- all four checks have passed: take the header apart
  have hsize : packetSize ≤ data.length := by omega
  obtain ⟨b₀, b₁, b₂, b₃, b₄, rest, rfl⟩ := exists_header hsize
  simp only [List.getD_cons_zero, List.getD_cons_succ] at hheader hcrc hlong h
  simp only [List.length_cons, packetSize] at hlong
  have hb₄ := b₄.toNat_lt
  have htake : (rest.take b₄.toNat).length = b₄.toNat := by rw [List.length_take]; omega
  rw [Option.some.injEq] at h
  subst h
  refine ⟨by rw [List.length_take]; omega, ?_⟩
  have hbody : packetBody
      { type := b₁, id := getLe16 (b₀ :: b₁ :: b₂ :: b₃ :: b₄ :: rest) 2
        payload := rest.take b₄.toNat }
      = (b₀ :: b₁ :: b₂ :: b₃ :: b₄ :: rest).take (packetSize + b₄.toNat) := by
    rw [packetBody, putLe16_getLe16, htake, UInt8.ofNat_toNat, packetSize,
      Nat.add_comm 5, ← hheader]
    rfl
  rw [show (b₀ :: b₁ :: b₂ :: b₃ :: b₄ :: rest).drop packetSize = rest from rfl, packetBytes,
    hbody, hcrc, putLe16_getLe16]
  refine ⟨(b₀ :: b₁ :: b₂ :: b₃ :: b₄ :: rest).drop (packetSize + b₄.toNat + 2), ?_⟩
  rw [List.append_assoc, ← drop_eq_pair (by simp [packetSize]; omega), List.take_append_drop]

/-- A packet passes the checks, whatever comes behind it. -/
theorem checkPacket_packetBytes {p : Packet} (hlen : p.payload.length ≤ 255)
    (tail : List UInt8) : checkPacket crc16Ccitt (packetBytes crc16Ccitt p ++ tail) = some p := by
  -- what the checks read back, field by field
  have hlength : (UInt8.ofNat p.payload.length).toNat = p.payload.length :=
    UInt8.toNat_ofNat_of_lt' (by simp [UInt8.size]; omega)
  have h₄ : ((packetBytes crc16Ccitt p ++ tail).getD 4 0).toNat = p.payload.length := hlength
  have hbody : (packetBytes crc16Ccitt p ++ tail).take (packetSize + p.payload.length)
      = packetBody p := by
    rw [packetBytes, List.append_assoc, ← packetBody_length, List.take_left]
  have hcrc : getLe16 (packetBytes crc16Ccitt p ++ tail) (packetSize + p.payload.length)
      = crc16Ccitt 0 (packetBody p) := by
    apply getLe16_eq
    have hdrop : (packetBytes crc16Ccitt p ++ tail).drop (packetSize + p.payload.length)
        = putLe16 (crc16Ccitt 0 (packetBody p)) ++ tail := by
      rw [packetBytes, List.append_assoc, ← packetBody_length, List.drop_left]
    rw [drop_eq_pair (by simp)] at hdrop
    exact (List.append_inj hdrop rfl).1
  have hid : getLe16 (packetBytes crc16Ccitt p ++ tail) 2 = p.id := getLe16_eq rfl
  have hpayload : ((packetBytes crc16Ccitt p ++ tail).drop packetSize).take p.payload.length
      = p.payload := by
    rw [show (packetBytes crc16Ccitt p ++ tail).drop packetSize
        = p.payload ++ putLe16 (crc16Ccitt 0 (packetBody p)) ++ tail from rfl,
      List.append_assoc, List.take_left]
  have hsize : (packetBytes crc16Ccitt p ++ tail).length
      = packetSize + p.payload.length + 2 + tail.length := by simp
  rw [checkPacket, if_neg (by omega), if_neg (fun h => h rfl)]
  dsimp only
  rw [h₄, if_neg (by omega), hbody, hcrc, if_neg (by simp), hid, hpayload]
  rfl

/-- **`checkPacket` accepts exactly the strings that start with a packet.** -/
theorem checkPacket_eq_some {data : List UInt8} {p : Packet} :
    checkPacket crc16Ccitt data = some p
      ↔ p.payload.length ≤ 255 ∧ packetBytes crc16Ccitt p <+: data := by
  refine ⟨packetBytes_of_checkPacket crc16Ccitt, ?_⟩
  rintro ⟨hlen, tail, rfl⟩
  exact checkPacket_packetBytes crc16Ccitt hlen tail

/--
**COBS on the wire: round trip, no zero, bounded length, room in `send_packet`.**

The first part is about the two functions on buffers of their own, the second
about the buffer `send_packet` gives the encoder, with its three extra bytes.
-/
theorem cobs_round_trip (x : List UInt8) :
    (∀ {n m : Nat} (encoded : Vector UInt8 n) (decoded : Vector UInt8 m),
        x.length + x.length / 254 + 1 ≤ n → x.length ≤ m →
        ∃ k encoded', cobsEncode x encoded = .ok (k, encoded')
          ∧ k ≤ x.length + x.length / 254 + 1
          ∧ 0 ∉ encoded'.toList.take k
          ∧ ∃ decoded', cobsDecode (encoded'.toList.take k) decoded = .ok (some x.length, decoded')
            ∧ decoded'.toList.take x.length = x)
      ∧ ∀ (junk : ∀ n, Vector UInt8 n) (cmdId : UInt8) (payload : List UInt8) (id : UInt16),
          payload.length ≤ 255 →
          ∃ raw k cobsBuf, sendPacketRaw crc16Ccitt junk cmdId payload id = .ok raw
            ∧ cobsEncode raw (junk (raw.length + 2 + 1)) = .ok (k, cobsBuf)
            ∧ k + 1 ≤ raw.length + 3
            ∧ sendPacket crc16Ccitt junk cmdId payload id
                = .ok (some (cobsBuf.toList.take k ++ [0])) := by
  constructor
  · intro n m encoded decoded hn hm
    have hle := cobs_length x
    obtain ⟨encoded', he, hw⟩ := cobsEncode_spec x encoded (by omega)
    obtain ⟨decoded', hd, hw'⟩ := cobsDecode_cobs x decoded hm
    refine ⟨_, encoded', he, hle, ?_⟩
    rw [hw.take]
    exact ⟨cobs_clean x, decoded', hd, hw'.take⟩
  · intro junk cmdId payload id hlen
    let p : Packet := { type := cmdId, id, payload }
    have hraw := packetBytes_length crc16Ccitt p
    have hle := cobs_length (packetBytes crc16Ccitt p)
    have hsmall : (packetBytes crc16Ccitt p).length ≤ 262 := by
      rw [hraw, packetSize]
      show 5 + payload.length + 2 ≤ 262
      omega
    obtain ⟨cobsBuf, hc, hw⟩ := cobsEncode_spec (packetBytes crc16Ccitt p)
      (junk ((packetBytes crc16Ccitt p).length + 2 + 1)) (by omega)
    refine ⟨_, _, cobsBuf, sendPacketRaw_spec crc16Ccitt junk p hlen, hc, by omega, ?_⟩
    rw [hw.take]
    exact sendPacket_spec crc16Ccitt junk p hlen

end Device

theorem cobs_round_trip_zeros :
    ∃ k encoded', cobsEncode [0x11, 0x00, 0x00] (Vector.replicate 4 0) = .ok (k, encoded')
      ∧ k ≤ 4 ∧ 0 ∉ encoded'.toList.take k
      ∧ ∃ decoded', cobsDecode (encoded'.toList.take k) (Vector.replicate 3 0)
            = .ok (some 3, decoded')
        ∧ decoded'.toList.take 3 = [0x11, 0x00, 0x00] :=
  (cobs_round_trip Crc16.crc16 [0x11, 0x00, 0x00]).1 (Vector.replicate 4 0) (Vector.replicate 3 0)
    (by decide) (by decide)

end MiniHF
