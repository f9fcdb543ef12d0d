import MiniHF.Modes.Ftx
import MiniHF.Lib.Numeral

/-!
# Every encoder's result fits its field

The packer cuts a value to the width of its field without a word, so a field holds
what its encoder returned only when that has no more bits than the field. Here is
one bound an encoder, over everything its argument can be. The one argument that
has to be promised is a hash token: `encode_c28` adds to it as it is, and only a
22-bit hash leaves the sum below `2^28`.
-/

namespace MiniHF.Ftx

/-! ## Characters -/

theorem between_bounds {lo hi : Char} {c : UInt8} (h : between lo hi c = true) :
    lo.toUInt8.toNat ≤ c.toNat ∧ c.toNat ≤ hi.toUInt8.toNat := by
  unfold between at h
  rw [Bool.and_eq_true, decide_eq_true_eq, decide_eq_true_eq] at h
  exact ⟨UInt8.le_iff_toNat_le.mp h.1, UInt8.le_iff_toNat_le.mp h.2⟩

/-- Folding letter case makes no NUL. -/
theorem upper_ne_zero {c : UInt8} (h : c ≠ 0) : upper c ≠ 0 := by
  unfold upper
  split
  · next hc =>
      have hlo : 97 ≤ c.toNat := (between_bounds hc).1
      have hle : (32 : UInt8) ≤ c := UInt8.le_iff_toNat_le.mpr (Nat.le_trans (by decide) hlo)
      intro h0
      have := congrArg UInt8.toNat h0
      rw [UInt8.toNat_sub_of_le _ _ hle] at this
      have h32 : (32 : UInt8).toNat = 32 := rfl
      have hz : (0 : UInt8).toNat = 0 := rfl
      omega
  · exact h

theorem noNul_of_all {s : List UInt8} (h : s.all (· != 0) = true) : ∀ c ∈ s, c ≠ 0 := by
  intro c hc
  simpa using List.all_eq_true.mp h c hc

/-- A literal in an array of `n + 1` characters. -/
def CString.ofLiteral (s : String) {n : Nat} (h : (literal s).all (· != 0) = true)
    (hlen : (literal s).length ≤ n) : CString n := ⟨literal s, noNul_of_all h, hlen⟩

/-- A character found in an alphabet is one of it, unless it is the NUL. -/
theorem charIndex_lt {charset : List UInt8} {c : UInt8} (hc : c ≠ 0) (hne : 0 < charset.length) :
    charIndex charset c < charset.length := by
  unfold charIndex strchr
  cases hi : (charset ++ [0]).idxOf? c with
  | none => exact hne
  | some i =>
      obtain ⟨hlt, hget, -⟩ := List.idxOf?_eq_some_iff.mp hi
      rw [List.length_append, List.length_singleton] at hlt
      rw [Option.getD_some]
      by_cases hlast : i = charset.length
      · -- found at the end: that is the NUL
        subst hlast
        rw [List.getElem_concat_length rfl] at hget
        exact absurd hget.symm hc
      · omega

/-- A character of the alphabet stands where its index says. -/
theorem charIndex_get {charset : List UInt8} {c : UInt8} (h : c ∈ charset) :
    (charset ++ [0])[charIndex charset c]? = some c := by
  unfold charIndex strchr
  cases hi : (charset ++ [0]).idxOf? c with
  | none => exact absurd (List.mem_append_left _ h) (List.idxOf?_eq_none_iff.mp hi)
  | some i =>
      obtain ⟨hlt, hc, -⟩ := List.idxOf?_eq_some_iff.mp hi
      rw [Option.getD_some, List.getElem?_eq_getElem hlt, hc]

theorem strchr_eq {charset : List UInt8} {c : UInt8} (hc : c ≠ 0) :
    strchr charset c = if c ∈ charset then some (charset.idxOf c) else none := by
  unfold strchr
  induction charset with
  | nil => simp [List.idxOf?_cons, hc.symm]
  | cons d charset ih =>
      rw [List.cons_append, List.idxOf?_cons, List.idxOf_cons, ih]
      by_cases hd : d = c
      · simp [hd]
      · have hne : (d == c) = false := beq_false_of_ne hd
        by_cases hin : c ∈ charset <;> simp [hne, Ne.symm hd, hin]

/-- The index is the place in the alphabet. What the alphabet does not have counts as its first
character. -/
theorem charIndex_eq {charset : List UInt8} {c : UInt8} (hc : c ≠ 0) :
    charIndex charset c = if c ∈ charset then charset.idxOf c else 0 := by
  rw [charIndex, strchr_eq hc]
  split <;> rfl

/-- Two characters of an alphabet with one index are the same. -/
theorem charIndex_inj {charset : List UInt8} {c d : UInt8} (hc : c ∈ charset) (hd : d ∈ charset)
    (h : charIndex charset c = charIndex charset d) : c = d := by
  have hget := charIndex_get hc
  rw [h, charIndex_get hd] at hget
  exact (Option.some.inj hget).symm

theorem digit_le {c : UInt8} (h : between '0' '9' c = true) : digit c ≤ 9 := by
  have hhi : c.toNat ≤ 57 := (between_bounds h).2
  have h0 : '0'.toNat = 48 := rfl
  unfold digit
  omega

theorem letter_le {hi : Char} {c : UInt8} (h : between 'A' hi c = true) :
    letter c ≤ hi.toUInt8.toNat - 65 := by
  have hhi := (between_bounds h).2
  have hA : 'A'.toNat = 65 := rfl
  unfold letter
  omega

theorem charAt_ne_zero {s : List UInt8} (h : ∀ c ∈ s, c ≠ 0) {i : Nat} (hi : i < s.length) :
    charAt s i ≠ 0 := by
  unfold charAt
  rw [List.getD_eq_getElem?_getD, List.getElem?_eq_getElem hi, Option.getD_some]
  exact h _ (List.getElem_mem hi)

theorem charAt_ext {s t : List UInt8} (hlen : s.length = t.length)
    (h : ∀ i < s.length, charAt s i = charAt t i) : s = t := by
  refine List.ext_getElem hlen ?_
  intro i hs ht
  have hi := h i hs
  unfold charAt at hi
  rwa [List.getD_eq_getElem?_getD, List.getElem?_eq_getElem hs, Option.getD_some,
    List.getD_eq_getElem?_getD, List.getElem?_eq_getElem ht, Option.getD_some] at hi

theorem map_upper_ne_zero {s : List UInt8} (h : ∀ c ∈ s, c ≠ 0) : ∀ c ∈ s.map upper, c ≠ 0 := by
  intro c hc
  obtain ⟨d, hd, rfl⟩ := List.mem_map.mp hc
  exact upper_ne_zero (h d hd)

/-! ## Callsigns -/

theorem std6_length (call : List UInt8) : (std6 call).length = 6 := by
  unfold std6
  cases lastDigit call with
  | none => rfl
  | some d =>
      simp only [List.length_take, List.length_append, List.length_replicate]
      omega

/-- Padding with spaces makes no NUL. -/
theorem spaces_ne_zero (n : Nat) : ∀ c ∈ List.replicate n space, c ≠ 0 := by
  intro c hc
  rw [List.eq_of_mem_replicate hc]
  decide

theorem std6_ne_zero {call : List UInt8} (h : ∀ c ∈ call, c ≠ 0) : ∀ c ∈ std6 call, c ≠ 0 := by
  intro c hc
  unfold std6 at hc
  cases hd : lastDigit call with
  | none =>
      rw [hd] at hc
      exact spaces_ne_zero 6 c hc
  | some d =>
      rw [hd] at hc
      -- spaces, the callsign, spaces
      rcases List.mem_append.mp (List.mem_of_mem_take hc) with hc | hc
      · rcases List.mem_append.mp hc with hc | hc
        · exact spaces_ne_zero _ c hc
        · exact h c hc
      · exact spaces_ne_zero 6 c hc

/-- The letters of a modifier as a number in base 27. -/
theorem cqLetters_lt (modifier : CString 4) : cqLetters modifier.chars < 531441 := by
  have hdigit : ∀ c ∈ modifier.chars,
      (if between 'A' 'Z' (upper c) then letter (upper c) + 1 else 0) < 27 := by
    intro c _
    split
    · next hc =>
        have hle : letter (upper c) ≤ 25 := letter_le hc
        omega
    · omega
  have hlt : cqLetters modifier.chars < Nat.pow 27 modifier.chars.length := Numeral.value_lt hdigit
  have hpow : Nat.pow 27 modifier.chars.length ≤ 531441 :=
    Nat.pow_le_pow_right (by omega) modifier.fits
  omega

/-- Narrowing makes no number larger. -/
theorem ofNat_toNat_lt {n bound : Nat} (h : n < bound) : (UInt32.ofNat n).toNat < bound := by
  rw [UInt32.toNat_ofNat']
  exact Nat.lt_of_le_of_lt (Nat.mod_le n _) h

/-- The hash of a hash token has 22 bits. -/
def C28.HashFits : C28 → Prop
  | .hash22 hash => hash.toNat < 1 <<< 22
  | _ => True

/-- The six places of a callsign: each has an alphabet of its own. -/
def callDigits (s : List UInt8) : List (Nat × Nat) :=
  [(37, charIndex a1 (charAt s 0)), (36, charIndex a2 (charAt s 1)),
    (10, charIndex a3 (charAt s 2)), (27, charIndex a4 (charAt s 3)),
    (27, charIndex a4 (charAt s 4)), (27, charIndex a4 (charAt s 5))]

theorem callDigits_lt {s : List UInt8} (h : ∀ c ∈ s, c ≠ 0) (hlen : s.length = 6) :
    ∀ d ∈ callDigits s, d.2 < d.1 := by
  have hchar : ∀ (charset : List UInt8) (i : Nat), 0 < charset.length → i < 6 →
      charIndex charset (charAt s i) < charset.length := by
    intro charset i hne hi
    exact charIndex_lt (charAt_ne_zero h (by rw [hlen]; exact hi)) hne
  intro d hd
  simp only [callDigits, List.mem_cons, List.not_mem_nil, or_false] at hd
  rcases hd with rfl | rfl | rfl | rfl | rfl | rfl
  · exact hchar a1 0 (by decide) (by omega)
  · exact hchar a2 1 (by decide) (by omega)
  · exact hchar a3 2 (by decide) (by omega)
  · exact hchar a4 3 (by decide) (by omega)
  · exact hchar a4 4 (by decide) (by omega)
  · exact hchar a4 5 (by decide) (by omega)

theorem callDigits_bases (s : List UInt8) :
    (callDigits s).map Prod.fst = [37, 36, 10, 27, 27, 27] := rfl

theorem std6_digits_lt {call : List UInt8} (h : ∀ c ∈ call, c ≠ 0) :
    ∀ d ∈ callDigits (std6 (call.map upper)), d.2 < d.1 :=
  callDigits_lt (std6_ne_zero (map_upper_ne_zero h)) (std6_length _)

theorem callNumber_lt {call : List UInt8} (h : ∀ c ∈ call, c ≠ 0) :
    Numeral.mixed (callDigits (std6 (call.map upper))) < 262177560 := by
  have hlt := Numeral.mixed_lt (std6_digits_lt h)
  have hvolume : Numeral.volume [37, 36, 10, 27, 27, 27] = 262177560 := rfl
  rwa [callDigits_bases, hvolume] at hlt

/-- The number of a callsign, behind the numbers of all other tokens. It fits 32 bits. -/
theorem encodeC28_callsign (callsign : CString 6) :
    (encodeC28 (.callsign callsign)).toNat
      = 6257896 + Numeral.mixed (callDigits (std6 (callsign.chars.map upper))) := by
  have hlt := callNumber_lt callsign.noNul
  have hcode : encodeC28 (.callsign callsign) = UInt32.ofNat
      (6257896 + Numeral.mixed (callDigits (std6 (callsign.chars.map upper)))) := by
    unfold encodeC28 Numeral.mixed callDigits
    simp only [List.foldl_cons, List.foldl_nil]
    congr 1
    omega
  rw [hcode, UInt32.toNat_ofNat']
  omega

/-- **Every `c28` token fits 28 bits.** The largest callsign reaches the last value there is. -/
theorem encodeC28_lt {c : C28} (h : c.HashFits) : (encodeC28 c).toNat < 1 <<< 28 := by
  cases c with
  | cq => decide
  | de => decide
  | qrz => decide
  | other => decide
  | hash22 hash =>
      have hhash : hash.toNat < 4194304 := h
      have hbase : (2063592 : UInt32).toNat = 2063592 := rfl
      show (2063592 + hash).toNat < 268435456
      rw [UInt32.toNat_add, hbase]
      omega
  | cqMod modifier =>
      have hletters := cqLetters_lt modifier
      show _ < 268435456
      unfold encodeC28
      dsimp only
      split
      · decide
      split
      · -- three digits
        next hall =>
          rw [Bool.and_eq_true, beq_iff_eq, List.all_eq_true] at hall
          have hdigit : ∀ i < 3, digit (charAt modifier.chars i) ≤ 9 := by
            intro i hi
            unfold charAt
            rw [List.getD_eq_getElem?_getD, List.getElem?_eq_getElem (by omega), Option.getD_some]
            exact digit_le (hall.1 _ (List.getElem_mem _))
          have h₀ := hdigit 0 (by omega)
          have h₁ := hdigit 1 (by omega)
          have h₂ := hdigit 2 (by omega)
          exact ofNat_toNat_lt (by omega)
      · exact ofNat_toNat_lt (by omega)
  | callsign callsign =>
      have hlt := callNumber_lt callsign.noNul
      show _ < 268435456
      rw [encodeC28_callsign]
      omega

/-- The eleven characters `encode_c58` reads. -/
def c58Buf (callsign : List UInt8) : List UInt8 :=
  (callsign.take 11).map upper ++ List.replicate (11 - min callsign.length 11) space

/-- The digit of a character of a callsign. What the alphabet does not have counts 0, like a
space. -/
def c58Digit (c : UInt8) : Nat := charIndex c58Charset c

theorem c58Buf_length (callsign : List UInt8) : (c58Buf callsign).length = 11 := by
  simp only [c58Buf, List.length_append, List.length_map, List.length_take, List.length_replicate]
  omega

theorem c58Buf_ne_zero {callsign : List UInt8} (h : ∀ c ∈ callsign, c ≠ 0) :
    ∀ c ∈ c58Buf callsign, c ≠ 0 := by
  intro c hc
  rcases List.mem_append.mp hc with hc | hc
  · exact map_upper_ne_zero (fun d hd => h d (List.mem_of_mem_take hd)) c hc
  · exact spaces_ne_zero _ c hc

theorem c58Number_lt {callsign : List UInt8} (h : ∀ c ∈ callsign, c ≠ 0) :
    Numeral.value 38 c58Digit (c58Buf callsign) < 1 <<< 58 := by
  have hnul := c58Buf_ne_zero h
  have hlt : Numeral.value 38 c58Digit (c58Buf callsign) < Nat.pow 38 (c58Buf callsign).length :=
    Numeral.value_lt (fun c hc => charIndex_lt (hnul c hc) (by decide))
  rw [c58Buf_length] at hlt
  exact Nat.lt_trans hlt (by decide)

/-- **A callsign in base 38.** Eleven characters fit 64 bits. -/
theorem encodeC58_toNat {callsign : List UInt8} (h : ∀ c ∈ callsign, c ≠ 0) :
    (encodeC58 callsign).toNat = Numeral.value 38 c58Digit (c58Buf callsign) := by
  have hlt : Numeral.value 38 c58Digit (c58Buf callsign) < 288230376151711744 := c58Number_lt h
  have hval : encodeC58 callsign
      = UInt64.ofNat (Numeral.value 38 c58Digit (c58Buf callsign)) := rfl
  rw [hval, UInt64.toNat_ofNat']
  omega

theorem encodeC58_lt {callsign : List UInt8} (h : ∀ c ∈ callsign, c ≠ 0) :
    (encodeC58 callsign).toNat < 1 <<< 58 := by
  rw [encodeC58_toNat h]
  exact c58Number_lt h

/-! ## Locators, reports, serial numbers and sections -/

section Masks

variable {n : Nat}

/-- What a mask leaves is no larger than the mask. -/
theorem mask8_lt (v mask : UInt8) (h : mask.toNat < n) : (v &&& mask).toNat < n := by
  rw [UInt8.toNat_and]
  exact Nat.lt_of_le_of_lt Nat.and_le_right h

theorem mask16_lt (v mask : UInt16) (h : mask.toNat < n) : (v &&& mask).toNat < n := by
  rw [UInt16.toNat_and]
  exact Nat.lt_of_le_of_lt Nat.and_le_right h

theorem mask32_lt (v mask : UInt32) (h : mask.toNat < n) : (v &&& mask).toNat < n := by
  rw [UInt32.toNat_and]
  exact Nat.lt_of_le_of_lt Nat.and_le_right h

end Masks

/-- The source cuts this one to its field itself. -/
theorem encodeG15_lt (g15 : G15) : (encodeG15 g15).toNat < 1 <<< 15 := by
  have hmask : ∀ x : UInt16, (x &&& 0x7FFF).toNat < 32768 := fun x => mask16_lt x _ (by decide)
  show _ < 32768
  cases g15 with
  | grid grid =>
      unfold encodeG15
      dsimp only
      split
      · exact hmask _
      · decide
  | report report => exact hmask _
  | rrr => decide
  | rr73 => decide
  | only73 => decide
  | blank => decide
  | other => decide

theorem encodeG25_lt (grid : List UInt8) : (encodeG25 grid).toNat < 1 <<< 25 := by
  show _ < 33554432
  unfold encodeG25
  split
  · decide
  split
  · next hc =>
      simp only [Bool.and_eq_true] at hc
      obtain ⟨⟨⟨⟨⟨h₀, h₁⟩, h₂⟩, h₃⟩, h₄⟩, h₅⟩ := hc
      have h₀ : letter (charAt grid 0) ≤ 17 := letter_le h₀
      have h₁ : letter (charAt grid 1) ≤ 17 := letter_le h₁
      have h₂ := digit_le h₂
      have h₃ := digit_le h₃
      have h₄ : letter (charAt grid 4) ≤ 23 := letter_le h₄
      have h₅ : letter (charAt grid 5) ≤ 23 := letter_le h₅
      exact ofNat_toNat_lt (by omega)
  · decide

theorem tableIndex_lt {table : List String} {name : List UInt8} {i : Nat}
    (h : tableIndex table name = some i) : i < table.length := by
  unfold tableIndex at h
  split at h
  · cases h
  · obtain ⟨hlt, -⟩ := List.idxOf?_eq_some_iff.mp h
    rwa [List.length_map] at hlt

theorem encodeS13_lt (s13 : S13) : (encodeS13 s13).toNat < 1 <<< 13 := by
  show _ < 8192
  cases s13 with
  | serial serial =>
      unfold encodeS13
      dsimp only
      split
      · next h =>
          have hle : serial.toNat ≤ 7999 := UInt16.le_iff_toNat_le.mp h
          omega
      · decide
  | state state =>
      unfold encodeS13
      dsimp only
      cases hi : tableIndex states state.chars with
      | none => decide
      | some i =>
          have hlt : i < 65 := tableIndex_lt hi
          dsimp only
          rw [UInt16.toNat_ofNat']
          omega
  | other => decide

/-- The section field: the table's index, or 0 for a section the table does not have. -/
theorem encodeS7_toUInt8 (name : List UInt8) :
    (if encodeS7 name ≥ 0 then (encodeS7 name).toUInt8 else 0)
      = UInt8.ofNat ((tableIndex sections name).getD 0) := by
  unfold encodeS7
  cases hi : tableIndex sections name with
  | none => rfl
  | some i =>
      -- `int8_t` holds every index of the table
      have hlt : i < 84 := tableIndex_lt hi
      have hall : ∀ j : Fin 84, (if Int8.ofNat j ≥ 0 then (Int8.ofNat j).toUInt8 else 0)
          = UInt8.ofNat j := by decide
      exact hall ⟨i, hlt⟩

theorem encodeR2_lt (r2 : R2) : (encodeR2 r2).toNat < 1 <<< 2 := by
  cases r2 <;> decide

theorem encodeR3_lt (report : Int) : (encodeR3 report).toNat < 1 <<< 3 := by
  show _ < 8
  unfold encodeR3
  split
  · decide
  · next h =>
      -- eight reports are left
      have hrange : report = 2 ∨ report = 3 ∨ report = 4 ∨ report = 5 ∨ report = 6 ∨ report = 7
          ∨ report = 8 ∨ report = 9 := by omega
      rcases hrange with rfl | rfl | rfl | rfl | rfl | rfl | rfl | rfl <;> decide

theorem encodeR5_lt (reportDb : Int) : (encodeR5 reportDb).toNat < 1 <<< 5 := by
  unfold encodeR5
  exact mask8_lt _ _ (by decide)

theorem encodeK3_lt (fdClass : K3FdClass) : (encodeK3 fdClass).toNat < 1 <<< 3 := by
  cases fdClass <;> decide

theorem encodeS11_lt (serial : UInt16) : (encodeS11 serial).toNat < 1 <<< 11 := by
  unfold encodeS11
  exact mask16_lt _ _ (by decide)

end MiniHF.Ftx
