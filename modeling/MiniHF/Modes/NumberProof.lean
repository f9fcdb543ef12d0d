import MiniHF.Modes.LayoutProof

/-!
# The 71-bit numbers

`encode_f71` computes a number in base 42 in a nine-byte array, one carry at a
time, and `encode_t71` puts hexadecimal digits side by side into nine bytes. Read
as one big-endian number, the nine bytes are in both cases the numeral of the
text, and it is below `2^71`: it stands at the right end of its 72 bits, with the
first bit 0.
-/

namespace MiniHF.Ftx

open Buffer

/-! ## Free text -/

theorem toUInt8_low (x : UInt16) : (x &&& 0xFF).toUInt8.toNat = x.toNat % 256 := by
  rw [UInt16.toNat_toUInt8, UInt16.toNat_and]
  have : x.toNat &&& (0xFF : UInt16).toNat = x.toNat % 2 ^ 8 := Nat.and_two_pow_sub_one_eq_mod _ 8
  rw [this]
  omega

/-- **One digit more.** The bytes and the carry out of them are 42 times the number plus the digit.
The carry is a digit too, so no product leaves 16 bits. -/
theorem times42_spec (bytes : List UInt8) {carry : UInt16} (h : carry.toNat < 42) :
    (times42 bytes carry).1.length = bytes.length ∧ (times42 bytes carry).2.toNat < 42 ∧
      (times42 bytes carry).2.toNat <<< (8 * bytes.length) + Bits.beValue (times42 bytes carry).1
        = Bits.beValue bytes * 42 + carry.toNat := by
  induction bytes with
  | nil => exact ⟨rfl, h, by simp [times42, Bits.beValue]⟩
  | cons b bytes ih =>
      obtain ⟨hlen, hlt, hval⟩ := ih
      have hb := b.toNat_lt
      rw [times42]
      dsimp only
      generalize times42 bytes carry = r at hlen hlt hval
      obtain ⟨result, out⟩ := r
      dsimp only at hlen hlt hval ⊢
      have hprod : (b.toUInt16 * 42 + out).toNat = b.toNat * 42 + out.toNat := by
        have h42 : (42 : UInt16).toNat = 42 := rfl
        rw [UInt16.toNat_add, UInt16.toNat_mul, UInt8.toNat_toUInt16, h42]
        omega
      have hshift : ((b.toUInt16 * 42 + out) >>> 8).toNat = (b.toNat * 42 + out.toNat) / 256 := by
        rw [UInt16.toNat_shiftRight, hprod, Nat.shiftRight_eq_div_pow]
        rfl
      refine ⟨by rw [List.length_cons, List.length_cons, hlen], by omega, ?_⟩
      rw [hshift, Bits.beValue, Bits.beValue, hlen, toUInt8_low, hprod, List.length_cons]
      -- `w` is the weight of the byte the step is at
      obtain ⟨w, hlow⟩ : ∃ w, ∀ x : Nat, x <<< (8 * bytes.length) = x * w :=
        ⟨_, fun x => Nat.shiftLeft_eq x _⟩
      have hhigh : ∀ x : Nat, x <<< (8 * (bytes.length + 1)) = x * 256 * w := by
        intro x
        have h256 : x <<< 8 = x * 256 := Nat.shiftLeft_eq x 8
        rw [show 8 * (bytes.length + 1) = 8 + 8 * bytes.length by omega, Nat.shiftLeft_add, hlow,
          h256]
      rw [hlow] at hval
      rw [hhigh, hlow, hlow]
      -- the product is `256 * (n / 256) + n % 256`, its high byte one place further left
      have hsplit : (b.toNat * 42 + out.toNat) / 256 * 256 * w + (b.toNat * 42 + out.toNat) % 256 * w
          = b.toNat * w * 42 + out.toNat * w := by
        rw [← Nat.add_mul, Nat.div_add_mod', Nat.add_mul, Nat.mul_right_comm]
      omega

/-- The digit of a character of free text. -/
def f71Digit (c : UInt8) : Nat := charIndex f71Charset c

theorem f71Digit_lt {c : UInt8} (h : c ≠ 0) : f71Digit c < 42 := charIndex_lt h (by decide)

/-- The step of `encode_f71`. Nothing is carried out of nine bytes while the number fits them. -/
theorem times42_fits {bytes : List UInt8} (hlen : bytes.length = 9) {c : UInt8} (hc : c ≠ 0)
    (hfit : Bits.beValue bytes * 42 + f71Digit c < 1 <<< 72) :
    (times42 bytes (UInt8.ofNat (f71Digit c)).toUInt16).1.length = 9 ∧
      (times42 bytes (UInt8.ofNat (f71Digit c)).toUInt16).2 = 0 ∧
      Bits.beValue (times42 bytes (UInt8.ofNat (f71Digit c)).toUInt16).1
        = Bits.beValue bytes * 42 + f71Digit c := by
  have hdigit := f71Digit_lt hc
  have hcarry : (UInt8.ofNat (f71Digit c)).toUInt16.toNat = f71Digit c := by
    rw [UInt8.toNat_toUInt16, UInt8.toNat_ofNat']
    omega
  obtain ⟨hl, -, hval⟩ := times42_spec bytes (by rw [hcarry]; exact hdigit)
  rw [hcarry, hlen] at hval
  have hfit : Bits.beValue bytes * 42 + f71Digit c < 4722366482869645213696 := hfit
  have hshift : (times42 bytes (UInt8.ofNat (f71Digit c)).toUInt16).2.toNat <<< (8 * 9)
      = (times42 bytes (UInt8.ofNat (f71Digit c)).toUInt16).2.toNat * 4722366482869645213696 :=
    Nat.shiftLeft_eq _ _
  have hout : (times42 bytes (UInt8.ofNat (f71Digit c)).toUInt16).2.toNat = 0 := by omega
  exact ⟨by rw [hl, hlen], UInt16.toNat_inj.mp hout, by omega⟩

/-- The loop of `encode_f71`: after `n` characters the number is below `42 ^ n`, and 13 of them
fit. -/
theorem foldl_times42 {chars : List UInt8} (hchars : ∀ c ∈ chars, c ≠ 0) {bytes : List UInt8}
    {n : Nat} (hlen : bytes.length = 9) (hval : Bits.beValue bytes < Nat.pow 42 n)
    (hn : n + chars.length ≤ 13) :
    let out := chars.foldl
      (fun result c => (times42 result (UInt8.ofNat (f71Digit c)).toUInt16).1) bytes
    out.length = 9 ∧
      Bits.beValue out = chars.foldl (fun v c => v * 42 + f71Digit c) (Bits.beValue bytes) := by
  induction chars generalizing bytes n with
  | nil => exact ⟨hlen, rfl⟩
  | cons c chars ih =>
      have hc := hchars c (by simp)
      have hdigit := f71Digit_lt hc
      rw [List.length_cons] at hn
      have hnext : Bits.beValue bytes * 42 + f71Digit c < Nat.pow 42 (n + 1) := by
        have hpow : Nat.pow 42 (n + 1) = Nat.pow 42 n * 42 := rfl
        omega
      -- at most thirteen characters, so still inside 72 bits
      have hmax : Nat.pow 42 (n + 1) ≤ Nat.pow 42 13 := Nat.pow_le_pow_right (by omega) (by omega)
      have h13 : Nat.pow 42 13 < 1 <<< 72 := by decide
      obtain ⟨hl, -, hv⟩ := times42_fits hlen hc (by omega)
      have hrec := ih (fun d hd => hchars d (by simp [hd])) hl (by rw [hv]; exact hnext) (by omega)
      rw [List.foldl_cons, List.foldl_cons, ← hv]
      exact hrec

/-- The loop of `encode_f71`, as far as the characters `chars`. -/
def f71Loop (chars : List UInt8) : List UInt8 :=
  chars.foldl (fun result c => (times42 result (UInt8.ofNat (f71Digit c)).toUInt16).1)
    (List.replicate 9 0)

theorem f71Loop_spec {chars : List UInt8} (hchars : ∀ c ∈ chars, c ≠ 0)
    (hlen : chars.length ≤ 13) :
    (f71Loop chars).length = 9 ∧
      Bits.beValue (f71Loop chars) = Numeral.value 42 f71Digit chars := by
  have hzero : Bits.beValue (List.replicate 9 0) = 0 := by decide
  have hpos : Bits.beValue (List.replicate 9 0) < Nat.pow 42 0 := by decide
  obtain ⟨hl, hv⟩ := foldl_times42 hchars (by decide) hpos (by omega)
  rw [hzero] at hv
  exact ⟨hl, hv⟩

/-- Twelve characters leave room for one more. -/
theorem f71Loop_carry {chars : List UInt8} (hchars : ∀ c ∈ chars, c ≠ 0)
    (hlen : chars.length < 13) {c : UInt8} (hc : c ≠ 0) :
    (times42 (f71Loop chars) (UInt8.ofNat (f71Digit c)).toUInt16).2 = 0 := by
  obtain ⟨hl, hv⟩ := f71Loop_spec hchars (Nat.le_of_lt hlen)
  have hdigit := f71Digit_lt hc
  have hlt : Numeral.value 42 f71Digit chars < Nat.pow 42 chars.length :=
    Numeral.value_lt (fun d hd => f71Digit_lt (hchars d hd))
  have hpow : Nat.pow 42 chars.length ≤ Nat.pow 42 12 :=
    Nat.pow_le_pow_right (by omega) (by omega)
  have h12 : Nat.pow 42 12 * 42 < 1 <<< 72 := by decide
  exact (times42_fits hl hc (by omega)).2.1

theorem f71Buf_length (text : List UInt8) : (f71Buf text).length = 13 := by
  simp only [f71Buf, List.length_append, List.length_replicate, List.length_map, List.length_take]
  omega

theorem f71Buf_ne_zero {text : List UInt8} (h : ∀ c ∈ text, c ≠ 0) : ∀ c ∈ f71Buf text, c ≠ 0 := by
  intro c hc
  rcases List.mem_append.mp hc with hc | hc
  · exact spaces_ne_zero _ c hc
  · exact map_upper_ne_zero (fun d hd => h d (List.mem_of_mem_take hd)) c hc

/-- The number of a free text: its thirteen characters in base 42. -/
def textNumber (text : List UInt8) : Nat := Numeral.value 42 f71Digit (f71Buf text)

/-- **`encode_f71` writes the number of the text.** -/
theorem encodeF71_spec {text : List UInt8} (h : ∀ c ∈ text, c ≠ 0) :
    (encodeF71 text).length = 9 ∧ Bits.beValue (encodeF71 text) = textNumber text := by
  exact f71Loop_spec (f71Buf_ne_zero h) (Nat.le_of_eq (f71Buf_length text))

/-- The place of a character in the alphabet of free text. Any other character is a space. -/
def textDigit (c : UInt8) : Nat := if c ∈ f71Charset then f71Charset.idxOf c else 0

theorem f71Digit_eq {c : UInt8} (h : c ≠ 0) : f71Digit c = textDigit c := charIndex_eq h

/-- The number of a text, in the words of its purpose: thirteen characters, upper case and to the
right. -/
theorem textNumber_eq {text : List UInt8} (h : ∀ c ∈ text, c ≠ 0) :
    textNumber text
      = Numeral.value 42 textDigit (List.leftpad 13 space ((text.take 13).map upper)) := by
  have hbuf : f71Buf text = List.leftpad 13 space ((text.take 13).map upper) := by
    rw [f71Buf, List.leftpad, List.length_map, List.length_take, Nat.min_comm,
      show 13 - min 13 text.length = 13 - min text.length 13 by omega]
  have hnul := f71Buf_ne_zero h
  rw [textNumber, ← hbuf]
  exact Numeral.value_congr (fun c hc => f71Digit_eq (hnul c hc))

theorem textNumber_lt {text : List UInt8} (h : ∀ c ∈ text, c ≠ 0) :
    textNumber text < 1 <<< 71 := by
  have hnul := f71Buf_ne_zero h
  have hlt : textNumber text < Nat.pow 42 (f71Buf text).length :=
    Numeral.value_lt (fun c hc => f71Digit_lt (hnul c hc))
  rw [f71Buf_length] at hlt
  exact Nat.lt_trans hlt (by decide)

/-- **The nine bytes are the number of the text.** Whatever is behind the thirteenth character is
not read. At each of the thirteen steps, with the characters `pre` behind and `c` to come, nothing
is carried out of the first byte. -/
theorem free_text_number {text : List UInt8} (h : ∀ c ∈ text, c ≠ 0) :
    (encodeF71 text).length = 9 ∧
    Bits.beValue (encodeF71 text)
      = Numeral.value 42 textDigit (List.leftpad 13 space ((text.take 13).map upper)) ∧
    (encodeF71 text = f71Loop (f71Buf text) ∧
      ∀ pre c post, f71Buf text = pre ++ c :: post →
        (times42 (f71Loop pre) (UInt8.ofNat (charIndex f71Charset c)).toUInt16).2 = 0) ∧
    Bits.beValue (encodeF71 text) < 1 <<< 71 := by
  obtain ⟨hlen, hval⟩ := encodeF71_spec h
  refine ⟨hlen, by rw [hval, textNumber_eq h], ⟨rfl, ?_⟩, by rw [hval]; exact textNumber_lt h⟩
  intro pre c post hsplit
  have hnul := f71Buf_ne_zero h
  have hbuf := f71Buf_length text
  rw [hsplit] at hnul hbuf
  rw [List.length_append, List.length_cons] at hbuf
  exact f71Loop_carry (fun d hd => hnul d (by simp [hd])) (by omega) (hnul c (by simp))

/-- "cq dx" and a character the alphabet does not have. -/
theorem free_text_number_cq :
    let text := literal "cq dx!"
    (encodeF71 text).length = 9 ∧ Bits.beValue (encodeF71 text) < 1 <<< 71 ∧
      Bits.beValue (encodeF71 text)
        = Numeral.value 42 textDigit (List.leftpad 13 space ((text.take 13).map upper)) := by
  intro text
  obtain ⟨hlen, hval, -, hlt⟩ := @free_text_number text (noNul_of_all rfl)
  exact ⟨hlen, hlt, hval⟩

/-! ## Telemetry -/

/-- Or-ing a byte into the buffer ors its bits. -/
theorem orByte_spec {m : Nat} (temp : Vector UInt8 m) {i : Nat} (b : UInt8) (hi : i < m) :
    ∃ temp', orByte temp i b = .ok temp' ∧
      ∀ q, Bits.bit temp'.toList q
        = (Bits.bit temp.toList q || (decide (q / 8 = i) && b.toNat.testBit (7 - q % 8))) := by
  obtain ⟨temp', hstore, hbits⟩ := Bits.store_bits temp (temp.toList.getD i 0 ||| b) hi
  refine ⟨temp', hstore, ?_⟩
  intro q
  rw [hbits]
  by_cases hq : q / 8 = i
  · rw [if_pos hq, UInt8.toNat_or, Nat.testBit_or, decide_eq_true hq, Bool.true_and, ← hq]
    rfl
  · rw [if_neg hq, decide_eq_false hq, Bool.false_and, Bool.or_false]

/-- A nibble shifted to its half of the byte covers the four bits from `bitPos` on. -/
theorem nibble_bit {nibble : UInt8} (hn : nibble.toNat < 16) {bitPos : Nat} (hpos : bitPos % 4 = 0)
    (q : Nat) :
    (decide (q / 8 = bitPos / 8)
        && (nibble <<< UInt8.ofNat (4 - bitPos % 8)).toNat.testBit (7 - q % 8))
      = (decide (bitPos ≤ q ∧ q < bitPos + 4) && nibble.toNat.testBit (bitPos + 3 - q)) := by
  have hmod : (UInt8.ofNat (4 - bitPos % 8)).toNat % 8 = 4 - bitPos % 8 := by
    rw [UInt8.toNat_ofNat']
    omega
  have hbit : (nibble <<< UInt8.ofNat (4 - bitPos % 8)).toNat.testBit (7 - q % 8)
      = (decide (4 - bitPos % 8 ≤ 7 - q % 8)
          && nibble.toNat.testBit (7 - q % 8 - (4 - bitPos % 8))) := by
    rw [UInt8.toNat_shiftLeft, hmod, Nat.testBit_mod_two_pow, Nat.testBit_shiftLeft,
      decide_eq_true (show 7 - q % 8 < 8 by omega), Bool.true_and]
  -- above its four bits a nibble has none
  have hhigh : ∀ j, 4 ≤ j → nibble.toNat.testBit j = false := by
    intro j hj
    have h16 : 2 ^ 4 ≤ 2 ^ j := Nat.pow_le_pow_right (by omega) hj
    exact Nat.testBit_lt_two_pow (by omega)
  rw [hbit]
  by_cases hin : bitPos ≤ q ∧ q < bitPos + 4
  · rw [decide_eq_true hin, decide_eq_true (show q / 8 = bitPos / 8 by omega),
      decide_eq_true (show 4 - bitPos % 8 ≤ 7 - q % 8 by omega),
      show 7 - q % 8 - (4 - bitPos % 8) = bitPos + 3 - q by omega, Bool.true_and]
  · rw [decide_eq_false hin, Bool.false_and]
    by_cases hbyte : q / 8 = bitPos / 8
    · by_cases hge : 4 - bitPos % 8 ≤ 7 - q % 8
      · rw [hhigh _ (by omega), Bool.and_false, Bool.and_false]
      · rw [decide_eq_false hge, Bool.false_and, Bool.and_false]
    · rw [decide_eq_false hbyte, Bool.false_and]

/-- The bits before `bitPos` end with the number `v`, and the rest of the buffer is clear. -/
def Holds (temp : Vector UInt8 9) (bitPos v : Nat) : Prop :=
  ∀ q < 72, Bits.bit temp.toList q = (decide (q < bitPos) && v.testBit (bitPos - 1 - q))

/-- **One nibble more.** It lands behind the ones before it, in a byte of its own or as the second
half of theirs. -/
theorem orNibbles_step {temp : Vector UInt8 9} {bitPos v : Nat} {nibble : UInt8}
    (h : Holds temp bitPos v) (hn : nibble.toNat < 16) (hpos : bitPos % 4 = 0)
    (hfit : bitPos + 4 ≤ 72) :
    ∃ temp', (∀ nibbles,
        orNibbles temp bitPos (nibble :: nibbles) = orNibbles temp' (bitPos + 4) nibbles) ∧
      Holds temp' (bitPos + 4) (v * 16 + nibble.toNat) := by
  obtain ⟨temp', hor, hbits⟩ := orByte_spec temp (nibble <<< UInt8.ofNat (4 - bitPos % 8))
    (show bitPos / 8 < 9 by omega)
  refine ⟨temp', ?_, ?_⟩
  · intro nibbles
    rw [orNibbles]
    dsimp only
    rw [if_pos (by omega), hor, ok_bind]
  · intro q hq
    have hnib : nibble.toNat < 2 ^ 4 := hn
    rw [hbits q, nibble_bit hn hpos, h q hq, Nat.mul_comm v, show 16 * v = 2 ^ 4 * v by rfl,
      Nat.testBit_two_pow_mul_add _ hnib]
    -- `q` belongs to the old number, to the nibble, or to the clear rest
    by_cases hold : q < bitPos
    · rw [decide_eq_true hold, decide_eq_false (show ¬ (bitPos ≤ q ∧ q < bitPos + 4) by omega),
        decide_eq_true (show q < bitPos + 4 by omega), if_neg (by omega),
        show bitPos + 4 - 1 - q - 4 = bitPos - 1 - q by omega]
      simp
    · by_cases hin : q < bitPos + 4
      · rw [decide_eq_false hold, decide_eq_true (show bitPos ≤ q ∧ q < bitPos + 4 by omega),
          decide_eq_true hin, if_pos (by omega), show bitPos + 3 - q = bitPos + 4 - 1 - q by omega]
        simp
      · rw [decide_eq_false hold, decide_eq_false (show ¬ (bitPos ≤ q ∧ q < bitPos + 4) by omega),
          decide_eq_false hin]
        simp

/-- The loop of `encode_t71`: the nibbles join the number in base 16, and the loop goes on behind
them. -/
theorem orNibbles_spec {nibbles : List UInt8} (hn : ∀ n ∈ nibbles, n.toNat < 16)
    {temp : Vector UInt8 9} {bitPos v : Nat} (h : Holds temp bitPos v) (hpos : bitPos % 4 = 0)
    (hfit : bitPos + 4 * nibbles.length ≤ 72) :
    ∃ temp', (∀ rest, orNibbles temp bitPos (nibbles ++ rest)
        = orNibbles temp' (bitPos + 4 * nibbles.length) rest) ∧
      Holds temp' (bitPos + 4 * nibbles.length) (nibbles.foldl (fun v n => v * 16 + n.toNat) v) := by
  induction nibbles generalizing temp bitPos v with
  | nil => exact ⟨temp, fun rest => rfl, h⟩
  | cons n nibbles ih =>
      rw [List.length_cons] at hfit
      obtain ⟨temp₁, hstep, h₁⟩ := orNibbles_step h (hn n (by simp)) hpos (by omega)
      obtain ⟨temp₂, hrun, h₂⟩ := ih (fun x hx => hn x (by simp [hx])) h₁ (by omega) (by omega)
      rw [List.length_cons, show bitPos + 4 * (nibbles.length + 1) = bitPos + 4 + 4 * nibbles.length
        by omega]
      exact ⟨temp₂, fun rest => (hstep _).trans (hrun rest), h₂⟩

theorem hexDigit_lt (c : UInt8) : (hexDigit c).toNat < 16 := by
  have h0 : '0'.toUInt8.toNat = 48 := rfl
  have hA : 'A'.toUInt8.toNat = 65 := rfl
  have ha : 'a'.toUInt8.toNat = 97 := rfl
  have h10 : (10 : UInt8).toNat = 10 := rfl
  unfold hexDigit
  split
  · next hc =>
      have hb : 48 ≤ c.toNat ∧ c.toNat ≤ 57 := between_bounds hc
      rw [UInt8.toNat_sub_of_le _ _ (UInt8.le_iff_toNat_le.mpr (by omega)), h0]
      omega
  split
  · next hc =>
      have hb : 65 ≤ c.toNat ∧ c.toNat ≤ 70 := between_bounds hc
      rw [UInt8.toNat_add, UInt8.toNat_sub_of_le _ _ (UInt8.le_iff_toNat_le.mpr (by omega)), hA, h10]
      omega
  split
  · next hc =>
      have hb : 97 ≤ c.toNat ∧ c.toNat ≤ 102 := between_bounds hc
      rw [UInt8.toNat_add, UInt8.toNat_sub_of_le _ _ (UInt8.le_iff_toNat_le.mpr (by omega)), ha, h10]
      omega
  · decide

theorem t71Nibbles_lt (hex : List UInt8) : ∀ n ∈ t71Nibbles hex, n.toNat < 16 := by
  intro n hn
  unfold t71Nibbles at hn
  have hdigits : ∀ d ∈ (hex.take 18).map hexDigit, d.toNat < 16 := by
    intro d hd
    obtain ⟨c, -, rfl⟩ := List.mem_map.mp hd
    exact hexDigit_lt c
  split at hn
  · cases hn
  · next d nibbles heq =>
      rw [heq] at hdigits
      rcases List.mem_cons.mp hn with rfl | hn
      · split
        · decide
        · exact hdigits d (by simp)
      · exact hdigits n (by simp [hn])

theorem t71Nibbles_length (hex : List UInt8) : (t71Nibbles hex).length = min 18 hex.length := by
  unfold t71Nibbles
  split
  · next heq =>
      have := congrArg List.length heq
      simpa using this.symm
  · next heq =>
      have := congrArg List.length heq
      simpa using this.symm

/-- The number of a hexadecimal text, its first digit cut to 7 when there are eighteen. -/
def nibbleNumber (hex : List UInt8) : Nat := Numeral.value 16 UInt8.toNat (t71Nibbles hex)

theorem nibbleNumber_lt (hex : List UInt8) : nibbleNumber hex < 1 <<< 71 := by
  have hlen := t71Nibbles_length hex
  have hall := t71Nibbles_lt hex
  show _ < 2361183241434822606848
  by_cases h18 : (t71Nibbles hex).length = 18
  · -- eighteen digits, the first of them below 8
    have hfirst : ∃ n nibbles, t71Nibbles hex = n :: nibbles ∧ n.toNat < 8 := by
      unfold t71Nibbles at h18 ⊢
      split
      · next heq => rw [heq] at h18; exact absurd h18 (by simp)
      · next d nibbles heq =>
          rw [heq] at h18
          refine ⟨_, _, rfl, ?_⟩
          have h17 : nibbles.length = 17 := Nat.succ.inj h18
          split
          · decide
          · next hc =>
              have hle : ¬ d > 7 := fun hd => hc ⟨h17, hd⟩
              have h7 : d.toNat ≤ 7 := UInt8.le_iff_toNat_le.mp (UInt8.not_lt.mp hle)
              omega
    obtain ⟨n, nibbles, heq, hn⟩ := hfirst
    rw [heq] at hall h18
    have h17 : nibbles.length = 17 := Nat.succ.inj h18
    have hlt := @Numeral.foldl_lt _ 16 UInt8.toNat nibbles (fun x hx => hall x (by simp [hx])) _ _
      (show 0 * 16 + n.toNat < 8 by omega)
    rw [h17] at hlt
    unfold nibbleNumber
    rw [heq]
    exact hlt
  · have hlt : nibbleNumber hex < Nat.pow 16 (t71Nibbles hex).length := Numeral.value_lt hall
    have hpow : Nat.pow 16 (t71Nibbles hex).length ≤ Nat.pow 16 17 :=
      Nat.pow_le_pow_right (by omega) (by omega)
    have h17 : Nat.pow 16 17 < 2361183241434822606848 := by decide
    omega

/-- Clearing the top bit changes nothing in a number below `2^71`. -/
theorem clearTop_spec {temp : Vector UInt8 9} {v : Nat} (h : Holds temp 72 v) (hv : v < 1 <<< 71) :
    ∃ temp', store temp 0 (temp.toList.getD 0 0 &&& 0x7F) = .ok temp' ∧ Holds temp' 72 v := by
  obtain ⟨temp', hstore, hbits⟩ :=
    Bits.store_bits temp (temp.toList.getD 0 0 &&& 0x7F) (show 0 < 9 by decide)
  refine ⟨temp', hstore, ?_⟩
  intro q hq
  have hmask : ∀ j : Nat, (0x7F : UInt8).toNat.testBit j = decide (j < 7) :=
    fun j => Nat.testBit_two_pow_sub_one 7 j
  have hbit := h q hq
  rw [hbits]
  by_cases hbyte : q / 8 = 0
  · unfold Bits.bit at hbit
    rw [hbyte] at hbit
    rw [if_pos hbyte, UInt8.toNat_and, Nat.testBit_and, hmask, hbit]
    by_cases hq0 : q = 0
    · -- the bit that is cleared was clear
      have hv : v < 2 ^ 71 := hv
      subst hq0
      rw [Nat.testBit_lt_two_pow hv]
      simp
    · rw [decide_eq_true (show 7 - q % 8 < 7 by omega), Bool.and_true]
  · rw [if_neg hbyte, hbit]

/-- Nothing is written yet, and the number so far is 0. -/
theorem holds_clear (bitPos : Nat) : Holds (Vector.replicate 9 0) bitPos 0 := by
  intro q hq
  unfold Bits.bit
  rw [Vector.toList_replicate, List.getD_eq_getElem?_getD, List.getElem?_replicate,
    if_pos (by omega), Nat.zero_testBit]
  simp

/-- **`encode_t71` writes the number of the text**, into its nine bytes and nowhere else. -/
theorem encodeT71_spec (hex : List UInt8) :
    ∃ data, encodeT71 hex = .ok data ∧ Bits.beValue data.toList = nibbleNumber hex := by
  have hlen := t71Nibbles_length hex
  unfold encodeT71
  dsimp only
  by_cases h0 : (t71Nibbles hex).length = 0
  · refine ⟨_, if_pos h0, ?_⟩
    unfold nibbleNumber
    rw [List.length_eq_zero_iff.mp h0]
    decide
  · obtain ⟨temp, hrun, htemp⟩ := orNibbles_spec (t71Nibbles_lt hex)
      (holds_clear (72 - (t71Nibbles hex).length * 4)) (by omega) (by omega)
    rw [show 72 - (t71Nibbles hex).length * 4 + 4 * (t71Nibbles hex).length = 72 by omega] at htemp
    have hrun := hrun []
    rw [List.append_nil, orNibbles] at hrun
    obtain ⟨data, hstore, hdata⟩ := clearTop_spec htemp (nibbleNumber_lt hex)
    refine ⟨data, by rw [if_neg h0, hrun, ok_bind, hstore], ?_⟩
    have hsize : data.toList.length = 9 := Vector.length_toList
    have hlt : nibbleNumber hex < 2361183241434822606848 := nibbleNumber_lt hex
    refine Bits.beValue_eq ?_ ?_
    · rw [hsize]
      show _ < 4722366482869645213696
      omega
    · intro k hk
      rw [hsize] at hk
      rw [hdata k hk, hsize, decide_eq_true hk, Bool.true_and]
      rfl

end MiniHF.Ftx
