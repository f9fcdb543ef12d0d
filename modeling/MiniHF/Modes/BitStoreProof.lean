import MiniHF.Modes.LayoutProof

/-!
# Storing and reading bit fields

`pack_bits` counts its bits down and `unpack_bits` counts them up, and both find the
place of a bit from its position. What is said of the two is in terms of positions:
a field that was packed is read back up to its width, and the positions outside it
keep what they held. Fields without a common position can be packed in either order.

`pack_bytes` takes its bits from a byte array. That is the same as `pack_bits` on
the numbers the pieces of the array stand for, however it is cut.
-/

namespace MiniHF.Ftx

open Buffer

/-- The field at `bitPos` covers the position. -/
def Covers (bitPos width q : Nat) : Prop := bitPos ≤ q ∧ q < bitPos + width

/-- No position belongs to both fields. -/
def FieldsApart (bitPos width bitPos' width' : Nat) : Prop :=
  ∀ q, ¬ (Covers bitPos width q ∧ Covers bitPos' width' q)

/-! ## One field -/

/-- `pack_bits` stores the low bits of the value, and nothing else changes. -/
theorem packBits_spec {m : Nat} (buf : Vector UInt8 m) {bitPos width : Nat} (value : UInt64)
    (hin : bitPos + width ≤ 8 * m) (hw : width ≤ 64) :
    ∃ buf', packBits buf bitPos value width = .ok buf' ∧
      (∀ k < width, Bits.bit buf'.toList (bitPos + k) = value.toNat.testBit (width - 1 - k)) ∧
      ∀ q, ¬ Covers bitPos width q → Bits.bit buf'.toList q = Bits.bit buf.toList q := by
  obtain ⟨buf', hok, hbits⟩ := Bits.writeBits_spec buf bitPos
    (fun k => value &&& (1 <<< UInt64.ofNat (width - 1 - k)) != 0) width hin
  refine ⟨buf', hok, ?_, ?_⟩
  · intro k hk
    rw [hbits, if_pos (by omega), Nat.add_sub_cancel_left]
    exact packed_bit value hw hk
  · intro q hq
    rw [hbits]
    exact if_neg hq

/-- The low bits of a number stand for its remainder. -/
theorem readBits_low {bytes : List UInt8} {pos width v : Nat}
    (h : ∀ k < width, Bits.bit bytes (pos + k) = v.testBit (width - 1 - k)) :
    Bits.readBits bytes pos width = v % 1 <<< width := by
  have hpow : 1 <<< width = 2 ^ width := by rw [Nat.shiftLeft_eq, Nat.one_mul]
  apply Bits.bitsValue_eq
  · rw [hpow]
    exact Nat.mod_lt _ (Nat.two_pow_pos width)
  · intro k hk
    rw [h k hk, hpow, Nat.testBit_mod_two_pow, decide_eq_true (by omega), Bool.true_and]

/-- **A field that was packed is read back**, up to its width, and nothing else has changed. -/
theorem unpack_pack {m : Nat} (buf : Vector UInt8 m) {bitPos width : Nat} (value : UInt64)
    (hin : bitPos + width ≤ 8 * m) (hw : width ≤ 64) :
    ∃ buf', packBits buf bitPos value width = .ok buf' ∧
      (unpackBits buf' bitPos width).toNat = value.toNat % 1 <<< width ∧
      ∀ q, ¬ Covers bitPos width q → Bits.bit buf'.toList q = Bits.bit buf.toList q := by
  obtain ⟨buf', hok, hfield, hrest⟩ := packBits_spec buf value hin hw
  refine ⟨buf', hok, ?_, hrest⟩
  rw [unpackBits_toNat buf' bitPos hw]
  exact readBits_low hfield

/-! ## Bytes in pieces -/

/-- How many bits the pieces have. -/
def totalWidth : List Nat → Nat
  | [] => 0
  | w :: widths => w + totalWidth widths

/-- The bits of `src` from `start` on, cut into pieces: each is packed as the number it stands for,
most significant bit first, behind the ones before it. -/
def packPieces {m : Nat} (buf : Vector UInt8 m) (bitPos : Nat) (src : List UInt8) (start : Nat) :
    List Nat → Except Fault (Vector UInt8 m)
  | [] => .ok buf
  | w :: widths => do
      let buf ← packBits buf bitPos (UInt64.ofNat (Bits.readBits src start w)) w
      packPieces buf (bitPos + w) src (start + w) widths

/-- Packing the number that some bits stand for is storing these bits. -/
theorem packBits_readBits {m : Nat} (buf : Vector UInt8 m) (bitPos : Nat) (src : List UInt8)
    (start : Nat) {w : Nat} (hw : w ≤ 64) :
    packBits buf bitPos (UInt64.ofNat (Bits.readBits src start w)) w
      = Bits.writeBits buf bitPos (fun k => testBit src (start + k)) w := by
  apply Bits.writeBits_congr
  intro k hk
  have hlt : Bits.readBits src start w < 2 ^ 64 := by
    apply Nat.lt_pow_two_of_testBit
    intro j hj
    rw [Bits.readBits, Bits.testBit_bitsValue, decide_eq_false (by omega), Bool.false_and]
  rw [packed_bit _ hw hk, UInt64.toNat_ofNat_of_lt' hlt, Bits.readBits, Bits.testBit_bitsValue,
    decide_eq_true (by omega), Bool.true_and, testBit_eq]
  congr 2
  omega

theorem packPieces_eq {m : Nat} (buf : Vector UInt8 m) (bitPos : Nat) (src : List UInt8)
    (start : Nat) {widths : List Nat} (hw : ∀ w ∈ widths, w ≤ 64) :
    packPieces buf bitPos src start widths
      = Bits.writeBits buf bitPos (fun k => testBit src (start + k)) (totalWidth widths) := by
  induction widths generalizing buf bitPos start with
  | nil => rfl
  | cons w widths ih =>
      obtain ⟨hone, hrest⟩ := List.forall_mem_cons.mp hw
      rw [packPieces, packBits_readBits buf bitPos src start hone, totalWidth, Bits.writeBits_add]
      congr 1
      funext buf'
      rw [ih buf' (bitPos + w) (start + w) hrest]
      simp only [Nat.add_assoc]

/--
**The bit-field store.**

A field inside the buffer is read back as it was packed, up to its width, and every
bit outside it is unchanged. Packs into fields without a common position commute.
Packing bytes is packing the first bits of the source piece by piece.
-/
theorem bit_field_store {m : Nat} (buf : Vector UInt8 m) {bitPos width : Nat}
    (hin : bitPos + width ≤ 8 * m) (hw : width ≤ 64) (value : UInt64) :
    (∃ buf', packBits buf bitPos value width = .ok buf' ∧
      (unpackBits buf' bitPos width).toNat = value.toNat % 1 <<< width ∧
      ∀ q, ¬ Covers bitPos width q → Bits.bit buf'.toList q = Bits.bit buf.toList q) ∧
    (∀ (bitPos' width' : Nat) (value' : UInt64), bitPos' + width' ≤ 8 * m → width' ≤ 64 →
      FieldsApart bitPos width bitPos' width' →
      (packBits buf bitPos value width >>= fun buf => packBits buf bitPos' value' width')
        = (packBits buf bitPos' value' width' >>= fun buf => packBits buf bitPos value width)) ∧
    ∀ (dst : Nat) (src : List UInt8) (n : Nat) (widths : List Nat), (∀ w ∈ widths, w ≤ 64) →
      totalWidth widths = n → n ≤ 8 * src.length → dst + n ≤ 8 * m →
      ∃ buf', packBytes buf dst src n = .ok buf' ∧ packPieces buf dst src 0 widths = .ok buf' := by
  refine ⟨unpack_pack buf value hin hw, ?_, ?_⟩
  · intro bitPos' width' value' hin' _ hapart
    exact Bits.writeBits_comm buf _ _ hin hin' hapart
  · intro dst src n widths hwidths htotal _ hdst
    obtain ⟨buf', hok, -⟩ := Bits.writeBits_spec buf dst (testBit src) n hdst
    refine ⟨buf', hok, ?_⟩
    rw [packPieces_eq buf dst src 0 hwidths, htotal]
    simpa only [Nat.zero_add] using hok

/-- A grid of 15 bits and the type behind it, over a buffer of ones, and a text of 71 bits in two
pieces. -/
theorem bit_field_store_std :
    let buf : Vector UInt8 10 := Vector.replicate 10 0xFF
    let text : List UInt8 := [0, 1, 2, 3, 4, 5, 6, 7, 8]
    (∃ buf', packBits buf 59 32403 15 = .ok buf' ∧ (unpackBits buf' 59 15).toNat = 32403) ∧
      (packBits buf 59 32403 15 >>= fun buf => packBits buf 74 1 3)
        = (packBits buf 74 1 3 >>= fun buf => packBits buf 59 32403 15) ∧
      ∃ buf', packBytes buf 0 text 71 = .ok buf' ∧ packPieces buf 0 text 0 [64, 7] = .ok buf' := by
  intro buf text
  obtain ⟨⟨buf', hok, hvalue, -⟩, hcomm, hpieces⟩ :=
    @bit_field_store 10 buf 59 15 (by decide) (by decide) 32403
  refine ⟨⟨buf', hok, hvalue⟩, hcomm 74 3 1 (by decide) (by decide) ?_,
    hpieces 0 text 71 [64, 7] (by simp) rfl (by decide) (by decide)⟩
  rintro q ⟨⟨-, hlt⟩, hge, -⟩
  omega

end MiniHF.Ftx
