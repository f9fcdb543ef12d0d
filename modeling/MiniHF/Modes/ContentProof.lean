import MiniHF.Modes.TokenProof
import MiniHF.Modes.LocatorProof
import MiniHF.Modes.LayoutProof

/-!
# What each field of a message tells apart

For each encoder there is something its argument is meant to be, and among such
arguments the code is the same exactly if they mean the same: tokens, names and
callsigns up to letter case, a report of a contest up to its step of two decibel, and
everything else only if it is equal. Behind most of them is a numeral or a table.
-/

namespace MiniHF.Ftx

/-! ## Tokens -/

theorem C28.Token.hashFits {c : C28} (h : c.Token) : c.HashFits := by
  cases c with
  | hash22 hash => exact h
  | _ => trivial

theorem map_upper_digits {s : List UInt8} (h : ∀ c ∈ s, isDigit c = true) : s.map upper = s := by
  refine (List.map_congr_left fun c hc => ?_).trans s.map_id
  exact upper_digit (h c hc)

/-- A word of digits is none of letters in another spelling. -/
theorem digits_not_letters {s t : List UInt8} (hs : ∀ c ∈ s, isDigit c = true)
    (ht : ∀ c ∈ t, isLetter c = true) (hlen : 1 ≤ s.length) : s.map upper ≠ t.map upper := by
  intro h
  rw [map_upper_digits hs] at h
  obtain ⟨c, hc⟩ := List.exists_mem_of_length_pos hlen
  obtain ⟨d, hd, hup⟩ := List.mem_map.mp (h ▸ hc)
  have hb : 48 ≤ c.toNat ∧ c.toNat ≤ 57 := between_bounds (hs c hc)
  have hb' : 65 ≤ (upper d).toNat ∧ (upper d).toNat ≤ 90 := between_bounds (ht d hd)
  rw [hup] at hb'
  omega

/-- The modifier of a `CQ` counts in either case. -/
theorem encodeC28_modifier {m n : CString 4} (hm : (C28.cqMod m).Token) (hn : (C28.cqMod n).Token)
    (h : m.chars.map upper = n.chars.map upper) :
    encodeC28 (.cqMod m) = encodeC28 (.cqMod n) := by
  rcases hm with ⟨hlen, hdigits⟩ | ⟨hlen, hletters⟩
  · rcases hn with ⟨-, hdigits'⟩ | ⟨hlen', hletters'⟩
    · rw [map_upper_digits hdigits, map_upper_digits hdigits'] at h
      rw [encodeC28, encodeC28, h]
    · exact absurd h (digits_not_letters hdigits hletters' (by omega))
  · rcases hn with ⟨hlen', hdigits'⟩ | ⟨hlen', hletters'⟩
    · exact absurd h.symm (digits_not_letters hdigits' hletters (by omega))
    · refine UInt32.toNat_inj.mp ?_
      rw [(encodeC28_letters hlen hletters).1, (encodeC28_letters hlen' hletters').1, cqLetters_eq,
        cqLetters_eq, h]

/-- **Tokens have one code exactly if they are the same.** -/
theorem encodeC28_iff {a b : C28} (ha : a.Token) (hb : b.Token) :
    encodeC28 a = encodeC28 b ↔ a.SameToken b := by
  have hka := Kind.holds_kind ha
  have hkb := Kind.holds_kind hb
  constructor
  · intro heq
    have hcode := congrArg UInt32.toNat heq
    have hkind : a.kind = b.kind := Kind.has_unique (Kind.has_code hka) (hcode ▸ Kind.has_code hkb)
    rw [← hkind] at hkb
    exact Kind.code_inj hka hkb hcode
  · intro hsame
    cases a with
    | cqMod m =>
        cases b with
        | cqMod n => exact encodeC28_modifier ha hb hsame
        | _ => exact hsame.elim
    | callsign s =>
        cases b with
        | callsign t =>
            have hsame : s.chars.map upper = t.chars.map upper := hsame
            rw [encodeC28, encodeC28, hsame]
        | _ => exact hsame.elim
    | hash22 h =>
        cases b with
        | hash22 k => rw [show h = k from hsame]
        | _ => exact hsame.elim
    | de | qrz | cq | other => cases b <;> first | rfl | exact hsame.elim

/-! ## Names in a table -/

theorem tableIndex_congr {table : List String} {s t : List UInt8}
    (h : s.map upper = t.map upper) : tableIndex table s = tableIndex table t := by
  have hlen : s.length = t.length := by
    rw [← List.length_map upper, h, List.length_map]
  rw [tableIndex, tableIndex, h, hlen]

theorem tableIndex_inj {table : List String} {s t : List UInt8} {i : Nat}
    (hs : tableIndex table s = some i) (ht : tableIndex table t = some i) :
    s.map upper = t.map upper := by
  have hget : ∀ {u : List UInt8}, tableIndex table u = some i →
      (table.map literal)[i]? = some (u.map upper) := by
    intro u hu
    rw [tableIndex] at hu
    split at hu
    · cases hu
    · obtain ⟨hlt, heq, -⟩ := List.idxOf?_eq_some_iff.mp hu
      rw [List.getElem?_eq_getElem hlt, heq]
  exact Option.some.inj ((hget hs).symm.trans (hget ht))

/-- A section of the table. -/
def SectionKnown (name : List UInt8) : Prop := (tableIndex sections name).isSome = true

/-- **Sections have one code exactly if they are the same.** -/
theorem sectionValue_iff {s t : CString 3} (hs : SectionKnown s.chars) (ht : SectionKnown t.chars) :
    sectionValue s = sectionValue t ↔ s.chars.map upper = t.chars.map upper := by
  obtain ⟨i, hi⟩ := Option.isSome_iff_exists.mp hs
  obtain ⟨j, hj⟩ := Option.isSome_iff_exists.mp ht
  have hlti : i < 84 := tableIndex_lt hi
  have hltj : j < 84 := tableIndex_lt hj
  rw [sectionValue, sectionValue, encodeS7_toUInt8, encodeS7_toUInt8]
  constructor
  · intro h
    rw [hi, hj, Option.getD_some, Option.getD_some] at h
    have hnat := congrArg UInt8.toNat h
    rw [UInt8.toNat_ofNat', UInt8.toNat_ofNat'] at hnat
    obtain rfl : i = j := by omega
    exact tableIndex_inj hi hj
  · intro h
    rw [tableIndex_congr h]

/-- What the exchange of a RTTY contest is meant to hold. -/
def S13.Known : S13 → Prop
  | .serial n => n ≤ 7999
  | .state name => (tableIndex states name.chars).isSome = true
  | .other => False

/-- The same exchange, letter case apart. -/
def S13.Same : S13 → S13 → Prop
  | .serial a, .serial b => a = b
  | .state a, .state b => a.chars.map upper = b.chars.map upper
  | _, _ => False

theorem encodeS13_serial {serial : UInt16} (h : (S13.serial serial).Known) :
    encodeS13 (.serial serial) = serial ∧ serial.toNat ≤ 7999 :=
  ⟨if_pos h, UInt16.le_iff_toNat_le.mp h⟩

theorem encodeS13_state {state : CString 2} (h : (S13.state state).Known) :
    ∃ i, tableIndex states state.chars = some i
      ∧ (encodeS13 (.state state)).toNat = 8001 + i := by
  obtain ⟨i, hi⟩ := Option.isSome_iff_exists.mp h
  have hlt : i < 65 := tableIndex_lt hi
  refine ⟨i, hi, ?_⟩
  rw [encodeS13, hi]
  dsimp only
  rw [UInt16.toNat_ofNat']
  omega

/-- **Serial numbers and states have one code exactly if they are the same.** -/
theorem encodeS13_iff {a b : S13} (ha : a.Known) (hb : b.Known) :
    encodeS13 a = encodeS13 b ↔ a.Same b := by
  cases a with
  | other => exact ha.elim
  | serial x =>
      obtain ⟨hx, hlex⟩ := encodeS13_serial ha
      cases b with
      | other => exact hb.elim
      | serial y =>
          rw [hx, (encodeS13_serial hb).1]
          exact Iff.rfl
      | state t =>
          obtain ⟨j, -, ht⟩ := encodeS13_state hb
          refine iff_of_false (fun h => ?_) id
          rw [← h, hx] at ht
          omega
  | state s =>
      obtain ⟨i, hi, hs⟩ := encodeS13_state ha
      cases b with
      | other => exact hb.elim
      | serial y =>
          obtain ⟨hy, hley⟩ := encodeS13_serial hb
          refine iff_of_false (fun h => ?_) id
          rw [h, hy] at hs
          omega
      | state t =>
          obtain ⟨j, hj, ht⟩ := encodeS13_state hb
          constructor
          · intro h
            rw [h, ht] at hs
            obtain rfl : j = i := by omega
            exact tableIndex_inj hi hj
          · intro h
            have h : s.chars.map upper = t.chars.map upper := h
            rw [encodeS13, encodeS13, tableIndex_congr h]

/-! ## Locators -/

/-- A locator of the letters A to R, a report from -30 dB on, or a word. -/
def G15.Sound : G15 → Prop
  | .grid g => GridAccepted g.chars ∧ charAt g.chars 0 ≤ 'R'.toUInt8 ∧ charAt g.chars 1 ≤ 'R'.toUInt8
  | .report r => -30 ≤ r.toInt ∧ r.toInt ≤ 49
  | .rrr => True
  | .rr73 => True
  | .only73 => True
  | .blank => True
  | .other => False

theorem G15.Sound.accepted {a : G15} (h : a.Sound) : a.Accepted := by
  cases a with
  | grid g => exact h.1
  | report r =>
      obtain ⟨hlo, hhi⟩ := h
      exact ⟨by omega, hhi⟩
  | other => exact h.elim
  | _ => trivial

theorem G15.Sound.inRange {a : G15} (h : a.Sound) : a.InRange := by
  cases a with
  | grid g =>
      obtain ⟨-, hfirst, hsecond⟩ := h
      rcases UInt8.lt_or_eq_of_le hfirst with hlt | heq
      · exact Or.inl hlt
      · exact Or.inr ⟨heq, hsecond⟩
  | _ => trivial

theorem G15.Sound.apart {a b : G15} (ha : a.Sound) (hb : b.Sound) : ¬ Collides a b := by
  intro h
  cases h with
  | @grids g h hfirst hsecond hthird hfourth =>
      -- the second letter is at most R, and the other one at least A
      have hle : (charAt g.chars 1).toNat ≤ 82 := UInt8.le_iff_toNat_le.mp ha.2.2
      have hlow : 65 ≤ (charAt h.chars 1).toNat := (between_bounds hb.1.second).1
      omega
  | @report g r hfirst hsecond hnumber =>
      have hlow := hb.1
      have h₂ := digit_le ha.1.third
      have h₃ := digit_le ha.1.fourth
      omega
  | @word r w hword =>
      have hlow := ha.1
      cases b with
      | blank | rrr | rr73 | only73 =>
          have hsome := Option.some.inj hword
          omega
      | _ => cases hword

/-- **Sound values of the 15-bit field have one code only if they are equal.** -/
theorem encodeG15_inj {a b : G15} (ha : a.Sound) (hb : b.Sound) (h : encodeG15 a = encodeG15 b) :
    a = b := by
  have hfa := ((fits_iff ha.accepted).mpr ha.inRange).2
  have hfb := ((fits_iff hb.accepted).mpr hb.inRange).2
  have hsum : a.sum = b.sum := by rw [← hfa, ← hfb, h]
  rcases sum_eq ha.accepted hb.accepted ha.inRange hb.inRange hsum with heq | hc | hc
  · exact heq
  · exact absurd hc (ha.apart hb)
  · exact absurd hc (hb.apart ha)

/-- A six-character locator that passes the check of `encode_g25`. -/
structure SixGrid (s : List UInt8) : Prop where
  length : s.length = 6
  first : between 'A' 'R' (charAt s 0) = true
  second : between 'A' 'R' (charAt s 1) = true
  third : between '0' '9' (charAt s 2) = true
  fourth : between '0' '9' (charAt s 3) = true
  fifth : between 'A' 'X' (charAt s 4) = true
  sixth : between 'A' 'X' (charAt s 5) = true

/-- Its places. -/
def sixDigits (s : List UInt8) : List (Nat × Nat) :=
  [(18, letter (charAt s 0)), (18, letter (charAt s 1)), (10, digit (charAt s 2)),
    (10, digit (charAt s 3)), (24, letter (charAt s 4)), (24, letter (charAt s 5))]

theorem sixDigits_lt {s : List UInt8} (h : SixGrid s) : ∀ d ∈ sixDigits s, d.2 < d.1 := by
  have h₀ : letter (charAt s 0) ≤ 17 := letter_le h.first
  have h₁ : letter (charAt s 1) ≤ 17 := letter_le h.second
  have h₂ := digit_le h.third
  have h₃ := digit_le h.fourth
  have h₄ : letter (charAt s 4) ≤ 23 := letter_le h.fifth
  have h₅ : letter (charAt s 5) ≤ 23 := letter_le h.sixth
  intro d hd
  simp only [sixDigits, List.mem_cons, List.not_mem_nil, or_false] at hd
  rcases hd with rfl | rfl | rfl | rfl | rfl | rfl <;> dsimp only <;> omega

theorem sixDigits_bases (s : List UInt8) :
    (sixDigits s).map Prod.fst = [18, 18, 10, 10, 24, 24] := rfl

theorem encodeG25_toNat {s : List UInt8} (h : SixGrid s) :
    (encodeG25 s).toNat = Numeral.mixed (sixDigits s) := by
  have hlt := Numeral.mixed_lt (sixDigits_lt h)
  have hvolume : Numeral.volume [18, 18, 10, 10, 24, 24] = 18662400 := rfl
  have hcheck : (between 'A' 'R' (charAt s 0) && between 'A' 'R' (charAt s 1)
      && between '0' '9' (charAt s 2) && between '0' '9' (charAt s 3)
      && between 'A' 'X' (charAt s 4) && between 'A' 'X' (charAt s 5)) = true := by
    rw [h.first, h.second, h.third, h.fourth, h.fifth, h.sixth]
    rfl
  have hmixed : letter (charAt s 0) * 18 * 10 * 10 * 24 * 24 + letter (charAt s 1) * 10 * 10 * 24 * 24
      + digit (charAt s 2) * 10 * 24 * 24 + digit (charAt s 3) * 24 * 24
      + letter (charAt s 4) * 24 + letter (charAt s 5) = Numeral.mixed (sixDigits s) := by
    unfold Numeral.mixed sixDigits
    simp only [List.foldl_cons, List.foldl_nil]
    omega
  rw [sixDigits_bases, hvolume] at hlt
  rw [encodeG25, if_neg (fun hne => hne h.length), if_pos hcheck, hmixed, UInt32.toNat_ofNat']
  exact Nat.mod_eq_of_lt (by omega)

/-- **Six-character locators have one code only if they are equal.** -/
theorem encodeG25_inj {s t : List UInt8} (hs : SixGrid s) (ht : SixGrid t)
    (h : encodeG25 s = encodeG25 t) : s = t := by
  have hnumber := congrArg UInt32.toNat h
  rw [encodeG25_toNat hs, encodeG25_toNat ht] at hnumber
  have hdigits := Numeral.mixed_inj ((sixDigits_bases s).trans (sixDigits_bases t).symm) (sixDigits_lt hs) (sixDigits_lt ht) hnumber
  simp only [sixDigits, List.cons.injEq, Prod.mk.injEq, true_and, and_true] at hdigits
  obtain ⟨h₀, h₁, h₂, h₃, h₄, h₅⟩ := hdigits
  refine charAt_ext (by rw [hs.length, ht.length]) fun i hi => ?_
  rw [hs.length] at hi
  refine UInt8.toNat_inj.mp ?_
  match i, hi with
  | 0, _ => rw [grid_letter hs.first, grid_letter ht.first, h₀]
  | 1, _ => rw [grid_letter hs.second, grid_letter ht.second, h₁]
  | 2, _ => rw [grid_digit hs.third, grid_digit ht.third, h₂]
  | 3, _ => rw [grid_digit hs.fourth, grid_digit ht.fourth, h₃]
  | 4, _ => rw [grid_letter hs.fifth, grid_letter ht.fifth, h₄]
  | 5, _ => rw [grid_letter hs.sixth, grid_letter ht.sixth, h₅]

/-! ## Callsigns in full -/

/-- **Callsigns have one 58-bit number exactly if they are the same.** -/
theorem encodeC58_iff {s t : CString 11} (hs : FullCallsign s.chars) (ht : FullCallsign t.chars) :
    encodeC58 s.chars = encodeC58 t.chars ↔ s.chars.map upper = t.chars.map upper := by
  constructor
  · exact encodeC58_inj hs ht s.noNul t.noNul
  · intro h
    have hbuf : c58Buf s.chars = c58Buf t.chars := by
      rw [c58Buf_eq hs.length_le, c58Buf_eq ht.length_le, h]
    refine UInt64.toNat_inj.mp ?_
    rw [encodeC58_toNat s.noNul, encodeC58_toNat t.noNul, hbuf]

/-! ## Small numbers -/

theorem flag_iff {a b : Bool} : flag a = flag b ↔ a = b := by
  cases a <;> cases b <;> decide

/-- A report of a contest goes in steps of two decibel. -/
theorem encodeR5_toNat {r : Int} (hlow : -30 ≤ r) (hhigh : r ≤ 32) :
    ((encodeR5 r).toNat : Int) = (r + 30) / 2 := by
  have hall : ∀ k : Fin 63, ((encodeR5 (k - 30)).toNat : Int) = k / 2 := by decide +kernel
  obtain ⟨n, hn⟩ := Int.eq_ofNat_of_zero_le (show 0 ≤ r + 30 by omega)
  have hk := hall ⟨n, by omega⟩
  rwa [← hn, show r + 30 - 30 = r by omega] at hk

theorem encodeR5_iff {a b : Int} (ha : -30 ≤ a ∧ a ≤ 32) (hb : -30 ≤ b ∧ b ≤ 32) :
    encodeR5 a = encodeR5 b ↔ (a + 30) / 2 = (b + 30) / 2 := by
  rw [← encodeR5_toNat ha.1 ha.2, ← encodeR5_toNat hb.1 hb.2, ← UInt8.toNat_inj]
  omega

theorem encodeR3_toNat {r : Nat} (hlow : 2 ≤ r) (hhigh : r ≤ 9) : (encodeR3 r).toNat = r - 2 := by
  have hall : ∀ k : Fin 8, (encodeR3 ((k.val + 2 : Nat) : Int)).toNat = k := by decide +kernel
  have hk := hall ⟨r - 2, by omega⟩
  rwa [show r - 2 + 2 = r by omega] at hk

theorem encodeR3_iff {a b : UInt8} (ha : 2 ≤ a.toNat ∧ a.toNat ≤ 9)
    (hb : 2 ≤ b.toNat ∧ b.toNat ≤ 9) :
    encodeR3 a.toNat = encodeR3 b.toNat ↔ a = b := by
  constructor
  · intro h
    have hnat := congrArg UInt8.toNat h
    rw [encodeR3_toNat ha.1 ha.2, encodeR3_toNat hb.1 hb.2] at hnat
    exact UInt8.toNat_inj.mp (by omega)
  · rintro rfl
    rfl

theorem encodeR2_iff {x y : R2} (hx : x ≠ .other) (hy : y ≠ .other) :
    encodeR2 x = encodeR2 y ↔ x = y := by
  refine ⟨fun h => ?_, congrArg encodeR2⟩
  cases x <;> cases y <;> first
    | rfl
    | exact absurd rfl hx
    | exact absurd rfl hy
    | exact absurd h (by decide)

theorem encodeK3_iff {x y : K3FdClass} (hx : x ≠ .other) (hy : y ≠ .other) :
    encodeK3 x = encodeK3 y ↔ x = y := by
  refine ⟨fun h => ?_, congrArg encodeK3⟩
  cases x <;> cases y <;> first
    | rfl
    | exact absurd rfl hx
    | exact absurd rfl hy
    | exact absurd h (by decide)

end MiniHF.Ftx
