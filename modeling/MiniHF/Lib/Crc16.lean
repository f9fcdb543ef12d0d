/-!
# The reflected CRC-16

Polynomial 0x1021 with the bits of every byte taken least significant first, no
final exclusive or. With seed 0 this is the function known as KERMIT.

A step of the division is linear and has no kernel, so a difference between two
registers never dies out, and one byte cannot undo what the byte before it did.
That makes `crc16_eq_of_window`: messages that differ in no more than two adjacent
bytes have different CRCs. A message that ends in its own CRC, low byte first, has
the CRC 0.
-/

namespace Crc16

/-- One bit of the division. -/
def crcBit (c : UInt16) : UInt16 :=
  if c &&& 1 = 1 then (c >>> 1) ^^^ 0x8408 else c >>> 1

/-- One byte: eight bits. -/
def crcByte (c : UInt16) (b : UInt8) : UInt16 := Nat.repeat crcBit 8 (c ^^^ b.toUInt16)

/-- The CRC of a byte string, starting from `seed`. -/
def crc16 (seed : UInt16) (data : List UInt8) : UInt16 := data.foldl crcByte seed

/-- The published check value of KERMIT, for the string `123456789`. -/
example : crc16 0 [0x31, 0x32, 0x33, 0x34, 0x35, 0x36, 0x37, 0x38, 0x39] = 0x2189 := by
  decide +kernel

/-! ## The step is linear and has no kernel -/

theorem low_bit (c : UInt16) : c &&& 1 = 0 ∨ c &&& 1 = 1 := by
  have h : (c &&& 1).toNat = c.toNat % 2 := by
    rw [UInt16.toNat_and, UInt16.toNat_one, Nat.and_one_is_mod]
  rcases Nat.mod_two_eq_zero_or_one c.toNat with h' | h' <;> rw [h'] at h
  · exact Or.inl (UInt16.toNat_inj.mp h)
  · exact Or.inr (UInt16.toNat_inj.mp h)

theorem crcBit_xor (a b : UInt16) : crcBit (a ^^^ b) = crcBit a ^^^ crcBit b := by
  have hlow : (a ^^^ b) &&& 1 = (a &&& 1) ^^^ (b &&& 1) := by
    apply UInt16.toNat_inj.mp
    simp only [UInt16.toNat_and, UInt16.toNat_xor, Nat.and_xor_distrib_right]
  have hcancel : ∀ x y p : UInt16, (x ^^^ p) ^^^ (y ^^^ p) = x ^^^ y := by
    intro x y p
    rw [UInt16.xor_comm y p, UInt16.xor_assoc x p, ← UInt16.xor_assoc p p y, UInt16.xor_self,
      UInt16.zero_xor]
  unfold crcBit
  rw [hlow, UInt16.shiftRight_xor]
  rcases low_bit a with ha | ha <;> rcases low_bit b with hb | hb <;> rw [ha, hb]
  · rfl
  · exact UInt16.xor_assoc _ _ _
  · rw [if_pos (by decide), if_pos rfl, if_neg (by decide), UInt16.xor_assoc, UInt16.xor_assoc,
      UInt16.xor_comm (b >>> 1)]
  · exact (hcancel _ _ _).symm

theorem crcBit_eq_zero {c : UInt16} (h : crcBit c = 0) : c = 0 := by
  have hlow : (c &&& 1).toNat = c.toNat % 2 := by
    rw [UInt16.toNat_and, UInt16.toNat_one, Nat.and_one_is_mod]
  have hhigh : (c >>> 1).toNat = c.toNat / 2 := by
    rw [UInt16.toNat_shiftRight]
    rfl
  have hlt := c.toNat_lt
  rw [crcBit] at h
  split at h
  · -- the shift leaves the highest bit clear, which the polynomial has
    have hpoly := congrArg UInt16.toNat (UInt16.xor_eq_zero_iff.mp h)
    rw [hhigh, show (0x8408 : UInt16).toNat = 33800 from rfl] at hpoly
    omega
  · rename_i hodd
    rw [(low_bit c).resolve_right hodd] at hlow
    have hzero := congrArg UInt16.toNat h
    rw [hhigh] at hzero
    rw [UInt16.toNat_zero] at hlow hzero
    exact UInt16.toNat_inj.mp (by rw [UInt16.toNat_zero]; omega)

/-- Eight steps. -/
def crcShift (c : UInt16) : UInt16 := Nat.repeat crcBit 8 c

theorem crcByte_eq (c : UInt16) (b : UInt8) : crcByte c b = crcShift (c ^^^ b.toUInt16) := rfl

theorem repeat_xor (n : Nat) (a b : UInt16) :
    Nat.repeat crcBit n (a ^^^ b) = Nat.repeat crcBit n a ^^^ Nat.repeat crcBit n b := by
  induction n with
  | zero => rfl
  | succ n ih =>
      simp only [Nat.repeat]
      rw [ih, crcBit_xor]

theorem repeat_eq_zero {n : Nat} {c : UInt16} (h : Nat.repeat crcBit n c = 0) : c = 0 := by
  induction n with
  | zero => exact h
  | succ n ih => exact ih (crcBit_eq_zero h)

theorem crcShift_xor (a b : UInt16) : crcShift (a ^^^ b) = crcShift a ^^^ crcShift b :=
  repeat_xor 8 a b

theorem crcShift_inj {a b : UInt16} (h : crcShift a = crcShift b) : a = b := by
  rw [← UInt16.xor_eq_zero_iff, ← crcShift_xor] at h
  exact UInt16.xor_eq_zero_iff.mp (repeat_eq_zero h)

/-! ## Differences do not die out -/

/-- Bytes that are equal never make two registers equal. -/
theorem crc16_inj {s t : UInt16} (data : List UInt8) (h : crc16 s data = crc16 t data) : s = t := by
  induction data generalizing s t with
  | nil => exact h
  | cons b data ih =>
      have hbyte : crcByte s b = crcByte t b := ih h
      rw [crcByte_eq, crcByte_eq] at hbyte
      exact (UInt16.xor_left_inj _).mp (crcShift_inj hbyte)

/-- A byte shifted through the register reaches its high half. -/
theorem crcShift_byte : ∀ n < 256, n ≠ 0 → 256 ≤ (crcShift (UInt16.ofNat n)).toNat := by
  decide +kernel

/-- Two bytes are determined by the registers before and behind them. -/
theorem crc16_pair {s : UInt16} {b₀ b₁ c₀ c₁ : UInt8} (h : crc16 s [b₀, b₁] = crc16 s [c₀, c₁]) :
    b₀ = c₀ ∧ b₁ = c₁ := by
  have hlast : crcShift (s ^^^ b₀.toUInt16) ^^^ b₁.toUInt16
      = crcShift (s ^^^ c₀.toUInt16) ^^^ c₁.toUInt16 := crcShift_inj h
  have hfirst : b₀ = c₀ := by
    rcases Classical.em (b₀ = c₀) with heq | hne
    · exact heq
    · -- the difference of the first bytes would have to fit one byte
      exfalso
      have hdiff : crcShift (b₀ ^^^ c₀).toUInt16 = (b₁ ^^^ c₁).toUInt16 := by
        rw [crcShift_xor, crcShift_xor, UInt16.xor_assoc, UInt16.xor_assoc, UInt16.xor_right_inj,
          ← UInt16.xor_eq_zero_iff] at hlast
        rw [UInt8.toUInt16_xor, UInt8.toUInt16_xor, crcShift_xor, ← UInt16.xor_eq_zero_iff, ← hlast]
        ac_rfl
      have hpos : (b₀ ^^^ c₀).toNat ≠ 0 := fun hz =>
        hne (UInt8.xor_eq_zero_iff.mp (UInt8.toNat_inj.mp hz))
      have hle := crcShift_byte (b₀ ^^^ c₀).toNat (b₀ ^^^ c₀).toNat_lt hpos
      rw [UInt16.ofNat_uInt8ToNat, hdiff, UInt8.toNat_toUInt16] at hle
      have := (b₁ ^^^ c₁).toNat_lt
      omega
  subst hfirst
  exact ⟨rfl, UInt8.toUInt16_inj.mp ((UInt16.xor_right_inj _).mp hlast)⟩

theorem crc16_append (s : UInt16) (x y : List UInt8) :
    crc16 s (x ++ y) = crc16 (crc16 s x) y := List.foldl_append

/--
**A window of two bytes determines itself.**

Messages of one length that agree outside two adjacent bytes and have the same CRC
are the same.
-/
theorem crc16_eq_of_window {s : UInt16} {x y : List UInt8} {i : Nat} (hlen : x.length = y.length)
    (hsame : ∀ j, j ≠ i → j ≠ i + 1 → x[j]? = y[j]?) (h : crc16 s x = crc16 s y) : x = y := by
  induction x generalizing s y i with
  | nil => rw [List.length_eq_zero_iff.mp hlen.symm]
  | cons b x ih =>
      obtain ⟨c, y, rfl⟩ := List.exists_cons_of_length_eq_add_one hlen.symm
      have hlen' : x.length = y.length := Nat.succ.inj hlen
      cases i with
      | succ i =>
          have hhead : some b = some c := hsame 0 (by omega) (by omega)
          rw [Option.some.injEq] at hhead
          subst hhead
          have htail : x = y := @ih (crcByte s b) y i hlen'
            (fun j _ _ => hsame (j + 1) (by omega) (by omega)) h
          rw [htail]
      | zero =>
          cases x with
          | nil =>
              obtain rfl := List.length_eq_zero_iff.mp hlen'.symm
              have hbyte : crcByte s b = crcByte s c := h
              rw [crcByte_eq, crcByte_eq] at hbyte
              rw [UInt8.toUInt16_inj.mp ((UInt16.xor_right_inj _).mp (crcShift_inj hbyte))]
          | cons b₁ x =>
              -- behind the two bytes the messages are the same
              obtain ⟨c₁, y, rfl⟩ := List.exists_cons_of_length_eq_add_one hlen'.symm
              have htail : x = y := List.ext_getElem? fun j =>
                hsame (j + 2) (by omega) (by omega)
              subst htail
              have hpair : crc16 s [b, b₁] = crc16 s [c, c₁] := by
                apply crc16_inj x
                rw [← crc16_append, ← crc16_append]
                exact h
              obtain ⟨hb, hb₁⟩ := crc16_pair hpair
              rw [hb, hb₁]

/-! ## A message behind which its CRC stands -/

theorem crcShift_high : ∀ n < 256, crcShift (UInt16.ofNat n <<< 8) = UInt16.ofNat n := by
  decide +kernel

/-- What the low byte leaves of a register. -/
theorem xor_low (v : UInt16) : v ^^^ v.toUInt8.toUInt16 = (v >>> 8).toUInt8.toUInt16 <<< 8 := by
  apply UInt16.toBitVec_inj.mp
  apply BitVec.eq_of_getLsbD_eq
  intro i hi
  simp only [UInt16.toBitVec_xor, BitVec.getLsbD_xor, UInt8.toBitVec_toUInt16,
    UInt16.toBitVec_toUInt8, UInt16.toBitVec_shiftLeft, UInt16.toBitVec_shiftRight]
  by_cases hlow : i < 8
  · simp [hlow, hi]
  · have hback : 8 + (i - 8) = i := by omega
    simp [hlow, hi, hback, show i - 8 < 16 by omega, show i - 8 < 8 by omega]

/-- **The CRC of a message and its CRC, low byte first, is 0.** -/
theorem crc16_self (v : UInt16) : crc16 v [v.toUInt8, (v >>> 8).toUInt8] = 0 := by
  have hlow : crcByte v v.toUInt8 = (v >>> 8).toUInt8.toUInt16 := by
    rw [crcByte_eq, xor_low, ← UInt16.ofNat_uInt8ToNat]
    exact crcShift_high _ (UInt8.toNat_lt _)
  show crcByte (crcByte v v.toUInt8) (v >>> 8).toUInt8 = 0
  rw [hlow, crcByte_eq, UInt16.xor_self]
  rfl

end Crc16
