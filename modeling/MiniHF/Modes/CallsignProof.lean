import MiniHF.Modes.EncoderProof
import MiniHF.Lib.Padding

/-!
# Callsigns and their hashes

A callsign that does not fit the 28-bit form goes out in 58 bits once, as a number
in base 38, and is meant by a hash of 10, 12 or 22 bits afterwards. The hash is
the top of a 64-bit product with that number, so it can be computed from either,
and a shorter hash is the front of a longer one.

`encode_c58` and `hash_callsign` fold the characters each on its own. The two
loops agree because both reduce modulo `2^64`, one at each step and one at the
end, and nothing reaches `2^64` at all.
-/

namespace MiniHF.Ftx

/-! ## The two loops -/

/-- The loop in 64 bits is the loop in `Nat`, reduced once. -/
theorem foldl_ofNat (f : UInt8 → Nat) (buf : List UInt8) (n : Nat) :
    buf.foldl (fun n c => n * 38 + UInt64.ofNat (f c)) (UInt64.ofNat n)
      = UInt64.ofNat (buf.foldl (fun n c => n * 38 + f c) n) := by
  induction buf generalizing n with
  | nil => rfl
  | cons c buf ih =>
      have hstep : UInt64.ofNat n * 38 + UInt64.ofNat (f c) = UInt64.ofNat (n * 38 + f c) := by
        rw [UInt64.ofNat_add, UInt64.ofNat_mul]
        rfl
      rw [List.foldl_cons, List.foldl_cons, hstep]
      exact ih (n * 38 + f c)

/-- **The hash is computed from the 58-bit number.** -/
theorem hashCallsign_eq (callsign : List UInt8) {nbits : Nat}
    (h : nbits = 10 ∨ nbits = 12 ∨ nbits = 22) :
    hashCallsign callsign nbits
      = ((47055833459 * encodeC58 callsign) >>> UInt64.ofNat (64 - nbits)).toUInt32 := by
  have hbits : ¬ ((nbits : Int) ≠ 10 ∧ (nbits : Int) ≠ 12 ∧ (nbits : Int) ≠ 22) := by omega
  have hloop : (c58Buf callsign).foldl
      (fun n c => n * 38 + UInt64.ofNat (charIndex c58Charset c)) 0 = encodeC58 callsign :=
    foldl_ofNat (charIndex c58Charset) (c58Buf callsign) 0
  unfold hashCallsign
  rw [if_neg hbits, ← hloop]
  rfl

/-- The top bits of the product. They fit the 32 bits the hash is returned in. -/
theorem hashCallsign_toNat (callsign : List UInt8) {nbits : Nat}
    (h : nbits = 10 ∨ nbits = 12 ∨ nbits = 22) :
    (hashCallsign callsign nbits).toNat
      = 47055833459 * (encodeC58 callsign).toNat % (1 <<< 64) / (1 <<< (64 - nbits)) := by
  have hcut : 64 - nbits < 64 := by omega
  have hshift : (UInt64.ofNat (64 - nbits)).toNat % 64 = 64 - nbits := by
    rw [UInt64.toNat_ofNat']
    omega
  have hprod : (47055833459 * encodeC58 callsign).toNat
      = 47055833459 * (encodeC58 callsign).toNat % (1 <<< 64) := UInt64.toNat_mul _ _
  have hweight : 1 <<< (64 - nbits) = 2 ^ (64 - nbits) := by rw [Nat.shiftLeft_eq, Nat.one_mul]
  rw [hashCallsign_eq callsign h, UInt64.toNat_toUInt32, UInt64.toNat_shiftRight, hshift, hprod,
    Nat.shiftRight_eq_div_pow, ← hweight]
  -- at least 42 of the 64 bits are shifted out
  have hlt : 47055833459 * (encodeC58 callsign).toNat % (1 <<< 64) < 18446744073709551616 :=
    Nat.mod_lt _ (by decide)
  refine Nat.mod_eq_of_lt ?_
  rcases h with rfl | rfl | rfl <;> exact Nat.div_lt_of_lt_mul (by omega)

/-! ## Which characters a text is made of -/

/-- A digit. -/
def isDigit (c : UInt8) : Bool := between '0' '9' c

/-- A letter of either case. -/
def isLetter (c : UInt8) : Bool := between 'A' 'Z' (upper c)

theorem mem_of_digit {charset : List UInt8}
    (hall : ∀ k : Fin 10, UInt8.ofNat (48 + k.val) ∈ charset) {c : UInt8} (h : isDigit c = true) :
    c ∈ charset := by
  have hb : 48 ≤ c.toNat ∧ c.toNat ≤ 57 := between_bounds h
  have hc : UInt8.ofNat (48 + (c.toNat - 48)) = c := by
    rw [show 48 + (c.toNat - 48) = c.toNat by omega, UInt8.ofNat_toNat]
  exact hc ▸ hall ⟨c.toNat - 48, by omega⟩

theorem mem_of_upper {charset : List UInt8}
    (hall : ∀ k : Fin 26, UInt8.ofNat (65 + k.val) ∈ charset) {c : UInt8}
    (h : between 'A' 'Z' c = true) : c ∈ charset := by
  have hb : 65 ≤ c.toNat ∧ c.toNat ≤ 90 := between_bounds h
  have hc : UInt8.ofNat (65 + (c.toNat - 65)) = c := by
    rw [show 65 + (c.toNat - 65) = c.toNat by omega, UInt8.ofNat_toNat]
  exact hc ▸ hall ⟨c.toNat - 65, by omega⟩

/-- What is not between two characters is told by one comparison. -/
theorem between_eq_false {lo hi : Char} {c : UInt8}
    (h : c.toNat < lo.toUInt8.toNat ∨ hi.toUInt8.toNat < c.toNat) : between lo hi c = false := by
  cases hb : between lo hi c with
  | false => rfl
  | true =>
      obtain ⟨hlo, hhi⟩ := between_bounds hb
      omega

/-- Only lower-case letters are folded. -/
theorem upper_eq_self {c : UInt8} (h : c.toNat < 97) : upper c = c := by
  have hnot : between 'a' 'z' c = false := between_eq_false (Or.inl h)
  rw [upper, hnot]
  rfl

theorem upper_digit {c : UInt8} (h : isDigit c = true) : upper c = c := by
  have hb : 48 ≤ c.toNat ∧ c.toNat ≤ 57 := between_bounds h
  exact upper_eq_self (by omega)

/-- Folding letter case makes no space. -/
theorem upper_ne_space {c : UInt8} (h : c ≠ space) : upper c ≠ space := by
  unfold upper
  split
  · next hc =>
      have hb : 97 ≤ c.toNat ∧ c.toNat ≤ 122 := between_bounds hc
      have hle : (32 : UInt8) ≤ c := UInt8.le_iff_toNat_le.mpr (Nat.le_trans (by decide) hb.1)
      intro heq
      have := congrArg UInt8.toNat heq
      rw [UInt8.toNat_sub_of_le _ _ hle] at this
      have h32 : (32 : UInt8).toNat = 32 := rfl
      have hspace : space.toNat = 32 := rfl
      omega
  · exact h

/-! ## The 58-bit number -/

/-- A callsign the 58-bit form can write. -/
structure FullCallsign (s : List UInt8) : Prop where
  length_le : s.length ≤ 11
  inAlphabet : ∀ c ∈ s, upper c ∈ c58Charset
  /-- Spaces behind it would be taken for the padding. -/
  noTrailing : s.getLast? ≠ some space

theorem c58Buf_eq {s : List UInt8} (h : s.length ≤ 11) :
    c58Buf s = List.rightpad 11 space (s.map upper) := by
  rw [c58Buf, List.take_of_length_le h, Nat.min_eq_left h, List.rightpad, List.length_map]

theorem mem_c58Buf {s : List UInt8} (h : FullCallsign s) : ∀ c ∈ c58Buf s, c ∈ c58Charset := by
  intro c hc
  rw [c58Buf_eq h.length_le] at hc
  rcases List.mem_append.mp hc with hc | hc
  · obtain ⟨d, hd, rfl⟩ := List.mem_map.mp hc
    exact h.inAlphabet d hd
  · rw [List.eq_of_mem_replicate hc]
    decide

theorem getLast_upper {s : List UInt8} (h : s.getLast? ≠ some space) :
    (s.map upper).getLast? ≠ some space := by
  rw [List.getLast?_map]
  cases hs : s.getLast? with
  | none => simp
  | some c =>
      rw [hs] at h
      intro heq
      exact upper_ne_space (fun hc => h (by rw [hc])) (Option.some.inj heq)

/-- **The 58-bit number is a callsign's own**, letter case apart. -/
theorem encodeC58_inj {s t : List UInt8} (hs : FullCallsign s) (ht : FullCallsign t)
    (hsn : ∀ c ∈ s, c ≠ 0) (htn : ∀ c ∈ t, c ≠ 0) (h : encodeC58 s = encodeC58 t) :
    s.map upper = t.map upper := by
  have hnumber := congrArg UInt64.toNat h
  rw [encodeC58_toNat hsn, encodeC58_toNat htn] at hnumber
  have hdigit : ∀ {u : List UInt8}, (∀ c ∈ u, c ≠ 0) → ∀ c ∈ c58Buf u, c58Digit c < 38 :=
    fun hu c hc => charIndex_lt (c58Buf_ne_zero hu c hc) (by decide)
  have hbuf : c58Buf s = c58Buf t :=
    Numeral.value_inj (by rw [c58Buf_length, c58Buf_length]) (hdigit hsn) (hdigit htn)
      (fun c hc d hd => charIndex_inj (mem_c58Buf hs c hc) (mem_c58Buf ht d hd)) hnumber
  rw [c58Buf_eq hs.length_le, c58Buf_eq ht.length_le] at hbuf
  exact Padding.rightpad_inj (getLast_upper hs.noTrailing) (getLast_upper ht.noTrailing) hbuf

/-- **The hash and the number of a callsign agree.** The hash is the top of the product with the
58-bit number, a shorter hash is the front of the longest one, and below 58 bits no two callsigns
that the alphabet can write share a number. -/
theorem callsign_hashes {s t : List UInt8} (hs : ∀ c ∈ s, c ≠ 0) (ht : ∀ c ∈ t, c ≠ 0)
    {nbits : Nat} (hn : nbits = 10 ∨ nbits = 12 ∨ nbits = 22) :
    (hashCallsign s nbits).toNat
        = 47055833459 * (encodeC58 s).toNat % (1 <<< 64) / (1 <<< (64 - nbits)) ∧
      (encodeC58 s = encodeC58 t → hashCallsign s nbits = hashCallsign t nbits) ∧
      (hashCallsign s nbits).toNat = (hashCallsign s 22).toNat / (1 <<< (22 - nbits)) ∧
      (encodeC58 s).toNat < 1 <<< 58 ∧
      (FullCallsign s → FullCallsign t → encodeC58 s = encodeC58 t → s.map upper = t.map upper) := by
  have h22 : (22 : Nat) = 10 ∨ (22 : Nat) = 12 ∨ (22 : Nat) = 22 := by omega
  refine ⟨hashCallsign_toNat s hn, ?_, ?_, encodeC58_lt hs, ?_⟩
  · intro heq
    rw [hashCallsign_eq s hn, hashCallsign_eq t hn, heq]
  · rw [hashCallsign_toNat s hn, show (22 : Int) = ((22 : Nat) : Int) from rfl,
      hashCallsign_toNat s h22, Nat.div_div_eq_div_mul]
    rcases hn with rfl | rfl | rfl <;> rfl
  · exact fun hfs hft heq => encodeC58_inj hfs hft hs ht heq

theorem fullCallsign_slash : FullCallsign (literal "pj4/k1abc") :=
  ⟨by decide, by decide +kernel, by decide⟩

/-- A callsign in two spellings. -/
theorem callsign_hashes_slash :
    let s := literal "pj4/k1abc"
    let t := literal "PJ4/K1ABC"
    (hashCallsign s 10).toNat = (hashCallsign s 22).toNat / (1 <<< 12) ∧
      hashCallsign s 10 = hashCallsign t 10 ∧ s.map upper = t.map upper := by
  intro s t
  obtain ⟨-, hsame, hfront, -, hinj⟩ :=
    @callsign_hashes s t (noNul_of_all rfl) (noNul_of_all rfl) 10 (Or.inl rfl)
  have heq : encodeC58 s = encodeC58 t := by decide
  exact ⟨hfront, hsame heq, hinj fullCallsign_slash ⟨by decide, by decide +kernel, by decide⟩ heq⟩

end MiniHF.Ftx
