import MiniHF.Modes.NumberProof
import MiniHF.Lib.Padding

/-!
# What a 71-bit message loses

The number of a free text or a telemetry message stands at the right end of nine
bytes, and `encode_ftx_payload` copies the first 71 of their 72 bits. The payload
then holds half the number: the last bit is lost, and the bit in front, which is
always 0, is sent in its place. Two messages whose numbers are `2k` and `2k + 1`
are the same ten bytes.

Telling which texts those are takes the numeral apart: 42 is even, so half the
number of a text is the digits of all its characters but the last, and half the
digit of the last one.
-/

namespace MiniHF.Ftx

open Buffer

/-! ## The payload holds half the number -/

section Number

variable {p q : Payload} {a b : List UInt8}

theorem payload_half (hp : number p = [⟨0, 71, testBit a⟩]) (hh : p.HashesFit) (ha : a.length = 9)
    (output : Vector UInt8 10) :
    ∃ out, encodeFtxPayload p output = .ok out ∧
      Bits.readBits out.toList 0 71 = Bits.beValue a / 2 := by
  obtain ⟨out, hout, -, hnum, -⟩ := encode_spec hh output
  refine ⟨out, hout, Bits.bitsValue_half (by rw [ha]) ?_⟩
  intro k hk
  rw [hp] at hnum
  have hbit := hnum _ (List.mem_singleton_self _) k hk
  rw [← testBit_eq a k]
  exact hbit

/-- Two messages of one type are the same bytes exactly when half their numbers are the same. -/
theorem same_payload (hp : number p = [⟨0, 71, testBit a⟩]) (hq : number q = [⟨0, 71, testBit b⟩])
    (hlayout : layout p = layout q) (hph : p.HashesFit) (hqh : q.HashesFit) (ha : a.length = 9)
    (hb : b.length = 9) (output previous : Vector UInt8 10) :
    encodeFtxPayload p output = encodeFtxPayload q previous ↔
      Bits.beValue a / 2 = Bits.beValue b / 2 := by
  constructor
  · intro h
    obtain ⟨out, hout, hread⟩ := payload_half hp hph ha output
    obtain ⟨out', hout', hread'⟩ := payload_half hq hqh hb previous
    rw [hout, hout'] at h
    cases h
    rw [← hread, hread']
  · intro h
    -- bit `k` of the payload is bit `70 - k` of half the number
    have hbits : ∀ k < 71, testBit a k = testBit b k := by
      intro k hk
      have htest : (Bits.beValue a / 2).testBit (70 - k) = (Bits.beValue b / 2).testBit (70 - k) := by
        rw [h]
      rw [Nat.testBit_div_two, Nat.testBit_div_two] at htest
      rw [testBit_eq, testBit_eq, Bits.bit_eq_testBit (by omega), Bits.bit_eq_testBit (by omega), ha,
        hb, show 8 * 9 - 1 - k = 70 - k + 1 by omega]
      exact htest
    rw [encode_eq_runs, encode_eq_runs, runs, runs, hp, hq, hlayout]
    simp only [List.singleton_append, Bits.writeRuns]
    rw [Bits.writeBits_congr _ 0 hbits]

end Number

/-! ## Texts -/

/-- The characters of a text are free text's, letter case aside. -/
def InAlphabet (text : List UInt8) : Prop := ∀ c ∈ text, upper c ∈ f71Charset

/-- A text as it is meant: upper case, without the spaces in front. -/
def trim (text : List UInt8) : List UInt8 := (text.map upper).dropWhile (· == space)

/-- Two spellings of one text. -/
def SameText (s t : List UInt8) : Prop := trim s = trim t

/-- The last character of a text, a space when there is none. -/
def lastChar (text : List UInt8) : UInt8 := (text.map upper).getLast?.getD space

/-- The texts are the same up to their last characters, and these are numbers `2k` and `2k + 1` of
the alphabet. -/
def Neighbours (s t : List UInt8) : Prop :=
  SameText s.dropLast t.dropLast ∧ lastChar s ≠ lastChar t ∧
    f71Digit (lastChar s) / 2 = f71Digit (lastChar t) / 2

/-- A right-justified text, its last character apart. -/
theorem leftpad_upper (n : Nat) (text : List UInt8) :
    List.leftpad (n + 1) space (text.map upper)
      = List.leftpad n space (text.dropLast.map upper) ++ [lastChar text] := by
  rw [Padding.leftpad_succ, List.map_dropLast]
  rfl

theorem f71Buf_eq {text : List UInt8} (h : text.length ≤ 13) :
    f71Buf text = List.leftpad 13 space (text.map upper) := by
  rw [f71Buf, List.take_of_length_le h, Nat.min_eq_left h, List.leftpad, List.length_map]

theorem sameText_iff {s t : List UInt8} {n : Nat} (hs : s.length ≤ n) (ht : t.length ≤ n) :
    SameText s t ↔ List.leftpad n space (s.map upper) = List.leftpad n space (t.map upper) := by
  rw [Padding.leftpad_eq_iff (by rwa [List.length_map]) (by rwa [List.length_map])]
  rfl

theorem length_dropLast_le {text : List UInt8} {n : Nat} (h : text.length ≤ n + 1) :
    text.dropLast.length ≤ n := by
  rw [List.length_dropLast]
  omega

theorem inAlphabet_dropLast {text : List UInt8} (h : InAlphabet text) : InAlphabet text.dropLast :=
  fun c hc => h c ((List.dropLast_subset text) hc)

theorem mem_f71Charset_of_leftpad {text : List UInt8} (h : InAlphabet text) (n : Nat) :
    ∀ c ∈ List.leftpad n space (text.map upper), c ∈ f71Charset := by
  intro c hc
  rcases List.mem_append.mp hc with hc | hc
  · rw [List.eq_of_mem_replicate hc]
    decide
  · obtain ⟨d, hd, rfl⟩ := List.mem_map.mp hc
    exact h d hd

theorem lastChar_mem {text : List UInt8} (h : InAlphabet text) : lastChar text ∈ f71Charset := by
  refine mem_f71Charset_of_leftpad h 1 _ ?_
  rw [leftpad_upper]
  exact List.mem_append_right _ (List.mem_singleton_self _)

theorem f71Digit_lt_of_mem {c : UInt8} (h : c ∈ f71Charset) : f71Digit c < 42 := by
  refine f71Digit_lt ?_
  rintro rfl
  exact absurd h (by decide)

section Texts

variable {s t : List UInt8}

/-- Two texts are the same when they are up to their last characters, and these are. -/
theorem sameText_last (hs : s.length ≤ 13) (ht : t.length ≤ 13) :
    SameText s t ↔ SameText s.dropLast t.dropLast ∧ lastChar s = lastChar t := by
  rw [sameText_iff hs ht, sameText_iff (length_dropLast_le hs) (length_dropLast_le ht),
    leftpad_upper 12 s, leftpad_upper 12 t, List.append_singleton_inj]

/-- Right-justified texts of the alphabet have the same number only when they are the same. -/
theorem numeral_inj (hs : InAlphabet s) (ht : InAlphabet t) {n : Nat} (hsn : s.length ≤ n)
    (htn : t.length ≤ n)
    (h : Numeral.value 42 f71Digit (List.leftpad n space (s.map upper))
      = Numeral.value 42 f71Digit (List.leftpad n space (t.map upper))) : SameText s t := by
  have hsc := mem_f71Charset_of_leftpad hs n
  have htc := mem_f71Charset_of_leftpad ht n
  have hlen : ∀ u : List UInt8, u.length ≤ n → (List.leftpad n space (u.map upper)).length = n := by
    intro u hu
    rw [List.length_leftpad, List.length_map, Nat.max_eq_left hu]
  refine (sameText_iff hsn htn).mpr (Numeral.value_inj ?_ ?_ ?_ ?_ h)
  · rw [hlen s hsn, hlen t htn]
  · exact fun c hc => f71Digit_lt_of_mem (hsc c hc)
  · exact fun c hc => f71Digit_lt_of_mem (htc c hc)
  · exact fun c hc d hd => charIndex_inj (hsc c hc) (htc d hd)

/-- Half the number of a text: the digits of its characters but the last, and half of that one's. -/
theorem textNumber_half (hs : s.length ≤ 13) :
    textNumber s / 2
      = Numeral.value 42 f71Digit (List.leftpad 12 space (s.dropLast.map upper)) * 21
        + f71Digit (lastChar s) / 2 := by
  rw [textNumber, f71Buf_eq hs, leftpad_upper]
  exact Numeral.value_snoc_half 21 f71Digit _ _

/-- **Half the numbers are the same for these texts and no others.** -/
theorem textNumber_half_eq_iff (hs : s.length ≤ 13) (ht : t.length ≤ 13) (has : InAlphabet s)
    (hat : InAlphabet t) :
    textNumber s / 2 = textNumber t / 2 ↔
      SameText s.dropLast t.dropLast ∧ f71Digit (lastChar s) / 2 = f71Digit (lastChar t) / 2 := by
  have hs' := length_dropLast_le hs
  have ht' := length_dropLast_le ht
  have hds := f71Digit_lt_of_mem (lastChar_mem has)
  have hdt := f71Digit_lt_of_mem (lastChar_mem hat)
  rw [textNumber_half hs, textNumber_half ht]
  constructor
  · intro h
    obtain ⟨hfront, hlast⟩ := Numeral.digit_unique (show f71Digit (lastChar s) / 2 < 21 by omega)
      (by omega) h
    exact ⟨numeral_inj (inAlphabet_dropLast has) (inAlphabet_dropLast hat) hs' ht' hfront, hlast⟩
  · rintro ⟨hfront, hlast⟩
    rw [(sameText_iff hs' ht').mp hfront, hlast]

/-- The number of a text is 0 only when the text is blank. -/
theorem textNumber_eq_zero_iff (hs : s.length ≤ 13) (has : InAlphabet s) :
    textNumber s = 0 ↔ trim s = [] := by
  -- the blank text is the empty one
  have hempty : ([] : List UInt8).length ≤ 13 := by decide
  have hblank : Numeral.value 42 f71Digit (List.leftpad 13 space ([].map upper)) = 0 := by decide
  rw [textNumber, f71Buf_eq hs]
  constructor
  · intro h
    exact numeral_inj has (fun c hc => absurd hc List.not_mem_nil) hs hempty (h.trans hblank.symm)
  · intro h
    have hsame : SameText s [] := h
    rw [(sameText_iff hs hempty).mp hsame, hblank]

end Texts

/-! ## Hexadecimal texts -/

/-- A telemetry text of 71 bits. -/
structure HexText (hex : List UInt8) : Prop where
  length_pos : 1 ≤ hex.length
  length_le : hex.length ≤ 18
  /-- Digits of either case. -/
  digits : ∀ c ∈ hex, between '0' '9' c ∨ between 'A' 'F' c ∨ between 'a' 'f' c
  /-- Eighteen digits are 72 bits, of which the first must be 0. -/
  first_le : hex.length = 18 → (hexDigit (charAt hex 0)).toNat ≤ 7

/-- The number a hexadecimal text denotes. -/
def hexNumber (hex : List UInt8) : Nat := Numeral.value 16 (fun c => (hexDigit c).toNat) hex

theorem nibbleNumber_eq {hex : List UInt8} (h : HexText hex) : nibbleNumber hex = hexNumber hex := by
  have hnibbles : t71Nibbles hex = hex.map hexDigit := by
    unfold t71Nibbles
    rw [List.take_of_length_le h.length_le]
    cases hex with
    | nil => rfl
    | cons c hex =>
        rw [List.map_cons]
        dsimp only
        have hcut : ¬ ((hex.map hexDigit).length = 17 ∧ hexDigit c > 7) := by
          rintro ⟨hlen, hgt⟩
          rw [List.length_map] at hlen
          have hle : (hexDigit c).toNat ≤ 7 := h.first_le (by rw [List.length_cons, hlen])
          have hlt : 7 < (hexDigit c).toNat := UInt8.lt_iff_toNat_lt.mp hgt
          omega
        rw [if_neg hcut]
  rw [nibbleNumber, hnibbles, hexNumber, Numeral.value, Numeral.value, List.foldl_map]

/-- A telemetry message from its text. -/
def encodeTelemetry (hex : List UInt8) (output : Vector UInt8 10) :
    Except Fault (Vector UInt8 10) := do
  let data ← encodeT71 hex
  encodeFtxPayload (.telemetry ⟨data⟩) output

/-! ## Which messages coincide -/

/-- Two free texts are the same bytes exactly when they share all but the last character, and the
digit of that one up to its last bit. -/
theorem freeText_same_iff {s t : CString 13} (hs : InAlphabet s.chars) (ht : InAlphabet t.chars)
    (output previous : Vector UInt8 10) :
    encodeFtxPayload (.freeText ⟨s⟩) output = encodeFtxPayload (.freeText ⟨t⟩) previous ↔
      SameText s.chars.dropLast t.chars.dropLast ∧
        f71Digit (lastChar s.chars) / 2 = f71Digit (lastChar t.chars) / 2 := by
  obtain ⟨hls, hvs⟩ := encodeF71_spec s.noNul
  obtain ⟨hlt, hvt⟩ := encodeF71_spec t.noNul
  have hsame := @same_payload (.freeText ⟨s⟩) (.freeText ⟨t⟩) _ _ rfl rfl rfl trivial trivial hls hlt
    output previous
  rw [hsame, hvs, hvt, textNumber_half_eq_iff s.fits t.fits hs ht]

/-- Two telemetry messages are the same bytes exactly when half their numbers are the same. -/
theorem telemetry_same_iff {a b : List UInt8} (ha : HexText a) (hb : HexText b)
    (output previous : Vector UInt8 10) :
    encodeTelemetry a output = encodeTelemetry b previous ↔ hexNumber a / 2 = hexNumber b / 2 := by
  obtain ⟨da, hda, hva⟩ := encodeT71_spec a
  obtain ⟨db, hdb, hvb⟩ := encodeT71_spec b
  have hsame := @same_payload (.telemetry ⟨da⟩) (.telemetry ⟨db⟩) _ _ rfl rfl rfl trivial trivial
    Vector.length_toList Vector.length_toList output previous
  unfold encodeTelemetry
  rw [hda, hdb, ok_bind, ok_bind, hsame, hva, hvb, nibbleNumber_eq ha, nibbleNumber_eq hb]

/-- **What the 71-bit messages keep.** Two free texts are told apart unless they are neighbours:
the same but for a last character, which is number `2k` of the alphabet in one and `2k + 1` in the
other. Two telemetry texts are told apart unless their numbers are `2k` and `2k + 1`. The first 71
bits are half the number the encoder computed, so they are that number for a blank text and for
telemetry 0 only. -/
theorem number_messages {s t : CString 13} (hs : InAlphabet s.chars) (ht : InAlphabet t.chars)
    {a b : List UInt8} (ha : HexText a) (hb : HexText b) (output previous : Vector UInt8 10) :
    ((encodeFtxPayload (.freeText ⟨s⟩) output = encodeFtxPayload (.freeText ⟨t⟩) previous →
        SameText s.chars t.chars) ↔ ¬ Neighbours s.chars t.chars) ∧
    (∃ out, encodeFtxPayload (.freeText ⟨s⟩) output = .ok out ∧
      (Bits.readBits out.toList 0 71 = Bits.beValue (encodeF71 s.chars) ↔ trim s.chars = [])) ∧
    ((encodeTelemetry a output = encodeTelemetry b previous → hexNumber a = hexNumber b)
      ↔ ¬ (hexNumber a ≠ hexNumber b ∧ hexNumber a / 2 = hexNumber b / 2)) ∧
    ∃ data out, encodeT71 a = .ok data ∧ encodeFtxPayload (.telemetry ⟨data⟩) output = .ok out ∧
      (Bits.readBits out.toList 0 71 = Bits.beValue data.toList ↔ hexNumber a = 0) := by
  refine ⟨?_, ?_, ?_, ?_⟩
  · rw [freeText_same_iff hs ht, sameText_last s.fits t.fits]
    constructor
    · rintro htold ⟨hfront, hne, hhalf⟩
      exact hne (htold ⟨hfront, hhalf⟩).2
    · rintro hnot ⟨hfront, hhalf⟩
      refine ⟨hfront, ?_⟩
      -- different last characters would make them neighbours
      by_cases hlast : lastChar s.chars = lastChar t.chars
      · exact hlast
      · exact absurd ⟨hfront, hlast, hhalf⟩ hnot
  · obtain ⟨hlen, hval⟩ := encodeF71_spec s.noNul
    obtain ⟨out, hout, hread⟩ := @payload_half (.freeText ⟨s⟩) _ rfl trivial hlen output
    refine ⟨out, hout, ?_⟩
    rw [hread, hval, ← textNumber_eq_zero_iff s.fits hs]
    omega
  · rw [telemetry_same_iff ha hb]
    constructor
    · rintro htold ⟨hne, hhalf⟩
      exact hne (htold hhalf)
    · intro hnot hhalf
      by_cases heq : hexNumber a = hexNumber b
      · exact heq
      · exact absurd ⟨heq, hhalf⟩ hnot
  · obtain ⟨data, hdata, hval⟩ := encodeT71_spec a
    obtain ⟨out, hout, hread⟩ :=
      @payload_half (.telemetry ⟨data⟩) _ rfl trivial Vector.length_toList output
    refine ⟨data, out, hdata, hout, ?_⟩
    rw [hread, hval, nibbleNumber_eq ha]
    omega

/-- A text of one character. -/
def oneChar (c : UInt8) (h : c ≠ 0) : CString 13 := ⟨[c], by simpa using h, by simp⟩

theorem inAlphabet_oneChar {c : UInt8} (h : c ≠ 0) (hc : upper c ∈ f71Charset) :
    InAlphabet (oneChar c h).chars := by
  intro d hd
  rwa [List.mem_singleton.mp hd]

theorem hexText_digit {c : UInt8} (h : between '0' '9' c = true) : HexText [c] := by
  refine ⟨by simp, by simp, ?_, by simp⟩
  intro d hd
  rw [List.mem_singleton.mp hd]
  exact Or.inl h

/-- A blank text and "3", and the numbers 0 and 2. -/
theorem number_messages_apart :
    let zero : Vector UInt8 10 := Vector.replicate 10 0
    (encodeFtxPayload (.freeText ⟨oneChar 0x20 (by decide)⟩) zero
        = encodeFtxPayload (.freeText ⟨oneChar 0x33 (by decide)⟩) zero → SameText [0x20] [0x33]) ∧
      (∃ out, encodeFtxPayload (.freeText ⟨oneChar 0x20 (by decide)⟩) zero = .ok out ∧
        Bits.readBits out.toList 0 71 = Bits.beValue (encodeF71 [0x20])) ∧
      (encodeTelemetry [0x30] zero = encodeTelemetry [0x32] zero →
        hexNumber [0x30] = hexNumber [0x32]) ∧
      ∃ data out, encodeT71 [0x30] = .ok data ∧ encodeFtxPayload (.telemetry ⟨data⟩) zero = .ok out ∧
        Bits.readBits out.toList 0 71 = Bits.beValue data.toList := by
  intro zero
  have hblank : InAlphabet (oneChar 0x20 (by decide)).chars :=
    inAlphabet_oneChar (by decide) (by decide)
  have hthree : InAlphabet (oneChar 0x33 (by decide)).chars :=
    inAlphabet_oneChar (by decide) (by decide)
  have h0 : HexText [0x30] := hexText_digit (by decide)
  have h2 : HexText [0x32] := hexText_digit (by decide)
  obtain ⟨htexts, ⟨out, hout, hbits⟩, hhexes, data, out', hdata, hout', hbits'⟩ :=
    number_messages hblank hthree h0 h2 zero zero
  refine ⟨htexts.mpr ?_, ⟨out, hout, hbits.mpr (by decide)⟩, hhexes.mpr (by decide),
    data, out', hdata, hout', hbits'.mpr (by decide)⟩
  unfold Neighbours SameText
  decide

/-- "1" and "2" are the same ten bytes, and so are telemetry 2 and 3. -/
theorem number_messages_lost :
    ¬ (∀ s t : CString 13, InAlphabet s.chars → InAlphabet t.chars →
        ∀ output previous : Vector UInt8 10,
          encodeFtxPayload (.freeText ⟨s⟩) output = encodeFtxPayload (.freeText ⟨t⟩) previous →
            SameText s.chars t.chars) ∧
      ¬ ∀ a b : List UInt8, HexText a → HexText b → ∀ output previous : Vector UInt8 10,
          encodeTelemetry a output = encodeTelemetry b previous → hexNumber a = hexNumber b := by
  have zero : Vector UInt8 10 := Vector.replicate 10 0
  constructor
  · intro h
    have h1 : InAlphabet (oneChar 0x31 (by decide)).chars :=
      inAlphabet_oneChar (by decide) (by decide)
    have h2 : InAlphabet (oneChar 0x32 (by decide)).chars :=
      inAlphabet_oneChar (by decide) (by decide)
    have hsame := (freeText_same_iff h1 h2 zero zero).mpr (by unfold SameText; decide)
    have htext := h _ _ h1 h2 zero zero hsame
    unfold SameText at htext
    exact absurd htext (by decide)
  · intro h
    have h2 : HexText [0x32] := hexText_digit (by decide)
    have h3 : HexText [0x33] := hexText_digit (by decide)
    have hsame := (telemetry_same_iff h2 h3 zero zero).mpr (by decide)
    exact absurd (h _ _ h2 h3 zero zero hsame) (by decide)

end MiniHF.Ftx
