import MiniHF.Modes.EncoderProof

/-!
# Locators and reports

A locator, a report and four words share 15 bits: locators from 0 on, one for each
pair of letters and pair of digits, and 32400 + 35 + r for a report of r dB, with
the words among them. The places of a locator are computed for the letters A to R,
but A to Z are let through, and a report may go down to -50 dB where room is left
from -30 on. What is told apart is said here pair by pair: a second letter behind
R is a first letter further on, the lowest reports are the last locators, and the
next four are the words.
-/

namespace MiniHF.Ftx

/-! ## What the field is meant to hold -/

/-- A locator that passes the check of `encode_g15`. -/
structure GridAccepted (s : List UInt8) : Prop where
  first : between 'A' 'Z' (charAt s 0) = true
  second : between 'A' 'Z' (charAt s 1) = true
  third : between '0' '9' (charAt s 2) = true
  fourth : between '0' '9' (charAt s 3) = true
  length : s.length = 4

/-- The values `encode_g15` takes. -/
def G15.Accepted : G15 → Prop
  | .grid g => GridAccepted g.chars
  | .report r => -50 ≤ r.toInt ∧ r.toInt ≤ 49
  | .rrr => True
  | .rr73 => True
  | .only73 => True
  | .blank => True
  | .other => False

/-- The number of a locator. -/
def gridNumber (s : List UInt8) : Nat :=
  letter (charAt s 0) * 1800 + letter (charAt s 1) * 100 + digit (charAt s 2) * 10
    + digit (charAt s 3)

/-- The sum of a value, before it is cut to 15 bits. -/
def G15.sum : G15 → Int
  | .grid g => gridNumber g.chars
  | .report r => maxGrid4 + r.toInt + 35
  | .blank => maxGrid4 + 1
  | .rrr => maxGrid4 + 2
  | .rr73 => maxGrid4 + 3
  | .only73 => maxGrid4 + 4
  | .other => maxGrid4 + 1

/-- A locator stays below the reports and the words, and nothing is cut. -/
def G15.Fits (a : G15) : Prop :=
  (∀ grid, a = .grid grid → (encodeG15 a).toNat < maxGrid4) ∧ ((encodeG15 a).toNat : Int) = a.sum

/-- The first letter of a locator is before R, or both are up to R. -/
def G15.InRange : G15 → Prop
  | .grid g =>
      charAt g.chars 0 < 'R'.toUInt8
        ∨ charAt g.chars 0 = 'R'.toUInt8 ∧ charAt g.chars 1 ≤ 'R'.toUInt8
  | _ => True

/-- The report that has the number of a word. -/
def G15.reportOfWord : G15 → Option Int
  | .blank => some (-34)
  | .rrr => some (-33)
  | .rr73 => some (-32)
  | .only73 => some (-31)
  | _ => none

/-- The pairs that are not told apart. -/
inductive Collides : G15 → G15 → Prop where
  /-- A second letter eighteen further on is a first letter one further on. -/
  | grids {g h : CString 4} :
      (charAt h.chars 0).toNat = (charAt g.chars 0).toNat + 1 →
      (charAt g.chars 1).toNat = (charAt h.chars 1).toNat + 18 →
      charAt g.chars 2 = charAt h.chars 2 → charAt g.chars 3 = charAt h.chars 3 →
      Collides (.grid g) (.grid h)
  /-- RR85 to RR99 are the reports from -50 to -36. -/
  | report {g : CString 4} {report : Int8} :
      charAt g.chars 0 = 'R'.toUInt8 → charAt g.chars 1 = 'R'.toUInt8 →
      ((digit (charAt g.chars 2) * 10 + digit (charAt g.chars 3) : Nat) : Int)
        = report.toInt + 135 →
      Collides (.grid g) (.report report)
  /-- The words are the reports from -34 to -31. -/
  | word {report : Int8} {w : G15} :
      w.reportOfWord = some report.toInt → Collides (.report report) w

/-! ## The code is the sum, cut -/

theorem low15 (x : UInt16) : (x &&& 0x7FFF).toNat = x.toNat % 32768 := by
  rw [UInt16.toNat_and]
  exact Nat.and_two_pow_sub_one_eq_mod _ 15

theorem grid_letter {hi : Char} {c : UInt8} (h : between 'A' hi c = true) :
    c.toNat = letter c + 65 := by
  have hlo : 65 ≤ c.toNat := (between_bounds h).1
  have hA : 'A'.toNat = 65 := rfl
  unfold letter
  omega

theorem grid_digit {c : UInt8} (h : between '0' '9' c = true) : c.toNat = digit c + 48 := by
  have hlo : 48 ≤ c.toNat := (between_bounds h).1
  have h0 : '0'.toNat = 48 := rfl
  unfold digit
  omega

/-- The places of a locator that passes the check. -/
theorem gridNumber_le {s : List UInt8} (h : GridAccepted s) : gridNumber s ≤ 47599 := by
  have h₀ : letter (charAt s 0) ≤ 25 := letter_le h.first
  have h₁ : letter (charAt s 1) ≤ 25 := letter_le h.second
  have h₂ := digit_le h.third
  have h₃ := digit_le h.fourth
  unfold gridNumber
  omega

theorem encodeG15_grid {grid : CString 4} (h : GridAccepted grid.chars) :
    (encodeG15 (.grid grid)).toNat = gridNumber grid.chars % 32768 := by
  have hle := gridNumber_le h
  have hcheck : (between 'A' 'Z' (charAt grid.chars 0) && between 'A' 'Z' (charAt grid.chars 1)
      && between '0' '9' (charAt grid.chars 2) && between '0' '9' (charAt grid.chars 3)) = true := by
    rw [h.first, h.second, h.third, h.fourth]
    rfl
  have hcode : encodeG15 (.grid grid) = UInt16.ofNat (gridNumber grid.chars) &&& 0x7FFF := by
    unfold encodeG15
    exact if_pos hcheck
  rw [hcode, low15, UInt16.toNat_ofNat']
  omega

theorem encodeG15_report {report : Int8} (h : -50 ≤ report.toInt ∧ report.toInt ≤ 49) :
    ((encodeG15 (.report report)).toNat : Int) = 32435 + report.toInt := by
  have hmax : (maxGrid4 : Int) = 32400 := rfl
  have hcode : encodeG15 (.report report)
      = UInt16.ofNat ((maxGrid4 + report.toInt + 35) % 65536).toNat &&& 0x7FFF := rfl
  rw [hcode, low15, UInt16.toNat_ofNat', hmax]
  omega

/-- **The code of a value is its sum in 15 bits.** -/
theorem encodeG15_sum {a : G15} (h : a.Accepted) :
    ((encodeG15 a).toNat : Int) = a.sum % 32768 := by
  cases a with
  | grid grid =>
      rw [encodeG15_grid h]
      rfl
  | report report =>
      have hcode := encodeG15_report h
      obtain ⟨hlo, hhi⟩ := h
      have hsum : (G15.report report).sum = 32400 + report.toInt + 35 := rfl
      rw [hcode, hsum]
      omega
  | rrr => decide
  | rr73 => decide
  | only73 => decide
  | blank => decide
  | other => exact h.elim

/-! ## When two sums are the same -/

/-- A locator, a report, or a word. -/
theorem accepted_cases {a : G15} (h : a.Accepted) :
    (∃ grid, a = .grid grid ∧ GridAccepted grid.chars) ∨
      (∃ report, a = .report report ∧ -50 ≤ report.toInt ∧ report.toInt ≤ 49) ∨
      ∃ r, a.reportOfWord = some r ∧ a.sum = 32435 + r ∧ -34 ≤ r ∧ r ≤ -31 := by
  cases a with
  | grid grid => exact Or.inl ⟨grid, rfl, h⟩
  | report report => exact Or.inr (Or.inl ⟨report, rfl, h⟩)
  | blank => exact Or.inr (Or.inr ⟨-34, rfl, rfl, by decide, by decide⟩)
  | rrr => exact Or.inr (Or.inr ⟨-33, rfl, rfl, by decide, by decide⟩)
  | rr73 => exact Or.inr (Or.inr ⟨-32, rfl, rfl, by decide, by decide⟩)
  | only73 => exact Or.inr (Or.inr ⟨-31, rfl, rfl, by decide, by decide⟩)
  | other => exact h.elim

/-- A report is one word at most. -/
theorem reportOfWord_inj {a b : G15} {r : Int} (ha : a.reportOfWord = some r)
    (hb : b.reportOfWord = some r) : a = b := by
  cases a <;> cases b <;> first
    | rfl
    | (simp [G15.reportOfWord] at ha hb <;> omega)

/-- A locator is in range when its number is below the other ones. -/
theorem inRange_iff {grid : CString 4} (h : GridAccepted grid.chars) :
    (G15.grid grid).InRange ↔ gridNumber grid.chars < 32400 := by
  have h₀ : letter (charAt grid.chars 0) ≤ 25 := letter_le h.first
  have h₁ : letter (charAt grid.chars 1) ≤ 25 := letter_le h.second
  have h₂ := digit_le h.third
  have h₃ := digit_le h.fourth
  have hc₀ := grid_letter h.first
  have hc₁ := grid_letter h.second
  have hR : 'R'.toUInt8.toNat = 82 := rfl
  unfold G15.InRange gridNumber
  dsimp only
  rw [UInt8.lt_iff_toNat_lt, UInt8.le_iff_toNat_le, ← UInt8.toNat_inj]
  omega

/-- Two locators with one number. -/
theorem gridNumber_eq {g h : CString 4} (hg : GridAccepted g.chars) (hh : GridAccepted h.chars)
    (heq : gridNumber g.chars = gridNumber h.chars) :
    g = h ∨ Collides (.grid g) (.grid h) ∨ Collides (.grid h) (.grid g) := by
  have hg₀ : letter (charAt g.chars 0) ≤ 25 := letter_le hg.first
  have hg₁ : letter (charAt g.chars 1) ≤ 25 := letter_le hg.second
  have hg₂ := digit_le hg.third
  have hg₃ := digit_le hg.fourth
  have hh₀ : letter (charAt h.chars 0) ≤ 25 := letter_le hh.first
  have hh₁ : letter (charAt h.chars 1) ≤ 25 := letter_le hh.second
  have hh₂ := digit_le hh.third
  have hh₃ := digit_le hh.fourth
  unfold gridNumber at heq
  have hthird : charAt g.chars 2 = charAt h.chars 2 := by
    refine UInt8.toNat_inj.mp ?_
    rw [grid_digit hg.third, grid_digit hh.third]
    omega
  have hfourth : charAt g.chars 3 = charAt h.chars 3 := by
    refine UInt8.toNat_inj.mp ?_
    rw [grid_digit hg.fourth, grid_digit hh.fourth]
    omega
  rw [hthird, hfourth] at heq
  have hgc := grid_letter hg.first
  have hgd := grid_letter hg.second
  have hhc := grid_letter hh.first
  have hhd := grid_letter hh.second
  -- 18 times the first letter and the second are one number, and no letter reaches 26
  rcases (by omega : letter (charAt g.chars 0) = letter (charAt h.chars 0) ∨
      letter (charAt h.chars 0) = letter (charAt g.chars 0) + 1 ∨
      letter (charAt g.chars 0) = letter (charAt h.chars 0) + 1) with hsame | hnext | hprev
  · have hfirst : charAt g.chars 0 = charAt h.chars 0 := UInt8.toNat_inj.mp (by omega)
    have hsecond : charAt g.chars 1 = charAt h.chars 1 := UInt8.toNat_inj.mp (by omega)
    have hchars : g.chars = h.chars := by
      refine charAt_ext (by rw [hg.length, hh.length]) ?_
      intro i hi
      rw [hg.length] at hi
      match i, hi with
      | 0, _ => exact hfirst
      | 1, _ => exact hsecond
      | 2, _ => exact hthird
      | 3, _ => exact hfourth
    left
    cases g
    cases h
    dsimp only at hchars
    subst hchars
    rfl
  · exact Or.inr (Or.inl (.grids (by omega) (by omega) hthird hfourth))
  · exact Or.inr (Or.inr (.grids (by omega) (by omega) hthird.symm hfourth.symm))

/-- A locator in range and a report have one number when the locator is among the last fifteen. -/
theorem grid_report_eq {g : CString 4} {report : Int8} (hg : GridAccepted g.chars)
    (hr : -50 ≤ report.toInt ∧ report.toInt ≤ 49) (hin : (G15.grid g).InRange)
    (heq : (G15.grid g).sum = (G15.report report).sum) : Collides (.grid g) (.report report) := by
  have hlt := (inRange_iff hg).mp hin
  have hsum : (G15.report report).sum = 32400 + report.toInt + 35 := rfl
  have hgsum : (G15.grid g).sum = gridNumber g.chars := rfl
  rw [hsum, hgsum] at heq
  have h₀ : letter (charAt g.chars 0) ≤ 25 := letter_le hg.first
  have h₁ : letter (charAt g.chars 1) ≤ 25 := letter_le hg.second
  have h₂ := digit_le hg.third
  have h₃ := digit_le hg.fourth
  have hc₀ := grid_letter hg.first
  have hc₁ := grid_letter hg.second
  have hR : 'R'.toUInt8.toNat = 82 := rfl
  unfold gridNumber at hlt heq
  obtain ⟨hlo, hhi⟩ := hr
  refine .report ?_ ?_ ?_
  · exact UInt8.toNat_inj.mp (by omega)
  · exact UInt8.toNat_inj.mp (by omega)
  · omega

/-- **Which sums are the same.** -/
theorem sum_eq {a b : G15} (ha : a.Accepted) (hb : b.Accepted) (hina : a.InRange) (hinb : b.InRange)
    (heq : a.sum = b.sum) : a = b ∨ Collides a b ∨ Collides b a := by
  rcases accepted_cases ha with ⟨g, rfl, hg⟩ | ⟨r, rfl, hr⟩ | ⟨v, hv, hsum, hlo, hhi⟩
  · have hlt := (inRange_iff hg).mp hina
    have hgsum : (G15.grid g).sum = gridNumber g.chars := rfl
    rcases accepted_cases hb with ⟨h, rfl, hh⟩ | ⟨r', rfl, hr'⟩ | ⟨v', hv', hsum', hlo', hhi'⟩
    · rcases gridNumber_eq hg hh (Int.ofNat.inj heq) with rfl | hc
      · exact Or.inl rfl
      · exact Or.inr hc
    · exact Or.inr (Or.inl (grid_report_eq hg hr' hina heq))
    · omega
  · have hrsum : (G15.report r).sum = 32400 + r.toInt + 35 := rfl
    rcases accepted_cases hb with ⟨h, rfl, hh⟩ | ⟨r', rfl, hr'⟩ | ⟨v', hv', hsum', hlo', hhi'⟩
    · exact Or.inr (Or.inr (grid_report_eq hh hr hinb heq.symm))
    · have hrsum' : (G15.report r').sum = 32400 + r'.toInt + 35 := rfl
      rw [Int8.toInt_inj.mp (show r.toInt = r'.toInt by omega)]
      exact Or.inl rfl
    · refine Or.inr (Or.inl (.word ?_))
      rw [hv', show v' = r.toInt by omega]
  · rcases accepted_cases hb with ⟨h, rfl, hh⟩ | ⟨r', rfl, hr'⟩ | ⟨v', hv', hsum', hlo', hhi'⟩
    · have hlt := (inRange_iff hh).mp hinb
      have hhsum : (G15.grid h).sum = gridNumber h.chars := rfl
      omega
    · have hrsum' : (G15.report r').sum = 32400 + r'.toInt + 35 := rfl
      refine Or.inr (Or.inr (.word ?_))
      rw [hv, show v = r'.toInt by omega]
    · have hvv : v = v' := by omega
      exact Or.inl (reportOfWord_inj hv (hvv ▸ hv'))

/-- The colliding pairs have one sum, and are two values. -/
theorem collides_sum {a b : G15} (ha : a.Accepted) (hb : b.Accepted) (h : Collides a b) :
    a.sum = b.sum ∧ a ≠ b := by
  cases h with
  | @grids g h hfirst hsecond hthird hfourth =>
      have hg₀ := grid_letter ha.first
      have hg₁ := grid_letter ha.second
      have hh₀ := grid_letter hb.first
      have hh₁ := grid_letter hb.second
      have hgsum : (G15.grid g).sum = gridNumber g.chars := rfl
      have hhsum : (G15.grid h).sum = gridNumber h.chars := rfl
      constructor
      · rw [hgsum, hhsum, gridNumber, gridNumber, hthird, hfourth]
        omega
      · intro heq
        rw [G15.grid.inj heq] at hfirst
        omega
  | @report g r hR hR' hdigits =>
      have hgsum : (G15.grid g).sum = gridNumber g.chars := rfl
      have hrsum : (G15.report r).sum = 32400 + r.toInt + 35 := rfl
      have hletter : letter 'R'.toUInt8 = 17 := rfl
      refine ⟨?_, G15.noConfusion⟩
      rw [hgsum, hrsum, gridNumber, hR, hR', hletter]
      omega
  | @word r w hw =>
      have hrsum : (G15.report r).sum = 32400 + r.toInt + 35 := rfl
      rcases accepted_cases hb with ⟨g, rfl, -⟩ | ⟨r', rfl, -⟩ | ⟨v, hv, hsum, -, -⟩
      · cases hw
      · cases hw
      · rw [hw] at hv
        have hv := Option.some.inj hv
        refine ⟨by omega, ?_⟩
        rintro rfl
        cases hw

/-- A value fits when a locator is in range. -/
theorem fits_iff {a : G15} (h : a.Accepted) : a.Fits ↔ a.InRange := by
  have hcode := encodeG15_sum h
  unfold G15.Fits
  rcases accepted_cases h with ⟨g, rfl, hg⟩ | ⟨r, rfl, hr⟩ | ⟨v, hv, hsum, hlo, hhi⟩
  · have hgsum : (G15.grid g).sum = gridNumber g.chars := rfl
    have hle := gridNumber_le hg
    have hmax : maxGrid4 = 32400 := rfl
    rw [inRange_iff hg]
    constructor
    · rintro ⟨hlt, huncut⟩
      have := hlt g rfl
      omega
    · intro hlt
      refine ⟨fun g' _ => ?_, by omega⟩
      omega
  · have hrsum : (G15.report r).sum = 32400 + r.toInt + 35 := rfl
    exact iff_of_true ⟨fun g hg => G15.noConfusion hg, by omega⟩ trivial
  · refine iff_of_true ⟨?_, by omega⟩ ?_
    · intro g hg
      rw [hg] at hv
      cases hv
    · cases a <;> trivial

/-- **What the 15-bit field tells apart.** Every locator stays below 32400 with nothing cut, and
two values have one code only when they are the same, exactly for locators in range that are not
one of the colliding pairs. -/
theorem locator_codes {a b : G15} (ha : a.Accepted) (hb : b.Accepted) :
    ((encodeG15 a = encodeG15 b → a = b) ∧ a.Fits ∧ b.Fits) ↔
      a.InRange ∧ b.InRange ∧ ¬ Collides a b ∧ ¬ Collides b a := by
  rw [fits_iff ha, fits_iff hb]
  have hca := encodeG15_sum ha
  have hcb := encodeG15_sum hb
  -- values of one sum have one code
  have hcode : a.sum = b.sum → encodeG15 a = encodeG15 b := by
    intro hsum
    refine UInt16.toNat_inj.mp ?_
    rw [hsum] at hca
    omega
  constructor
  · rintro ⟨hinj, hina, hinb⟩
    refine ⟨hina, hinb, ?_, ?_⟩
    · intro hc
      obtain ⟨hsum, hne⟩ := collides_sum ha hb hc
      exact hne (hinj (hcode hsum))
    · intro hc
      obtain ⟨hsum, hne⟩ := collides_sum hb ha hc
      exact hne (hinj (hcode hsum.symm)).symm
  · rintro ⟨hina, hinb, hab, hba⟩
    refine ⟨?_, hina, hinb⟩
    intro heq
    obtain ⟨-, hfa⟩ := (fits_iff ha).mpr hina
    obtain ⟨-, hfb⟩ := (fits_iff hb).mpr hinb
    have hsum : a.sum = b.sum := by rw [← hfa, ← hfb, heq]
    rcases sum_eq ha hb hina hinb hsum with h | h | h
    · exact h
    · exact absurd h hab
    · exact absurd h hba

theorem report_apart {g : CString 4} (report : Int8) (hg : charAt g.chars 0 ≠ 'R'.toUInt8) :
    ¬ Collides (.grid g) (.report report) ∧ ¬ Collides (.report report) (.grid g) := by
  constructor
  · intro h
    cases h with
    | report hR => exact hg hR
  · intro h
    cases h with
    | word hw => cases hw

/-- A locator and a report. -/
theorem locator_codes_grid :
    let a := G15.grid (.ofLiteral "FN42" rfl (by decide))
    let b := G15.report (-10)
    (encodeG15 a = encodeG15 b → a = b) ∧ a.Fits ∧ b.Fits := by
  intro a b
  have ha : a.Accepted := ⟨by decide, by decide, by decide, by decide, by decide⟩
  have hb : b.Accepted := ⟨by decide, by decide⟩
  exact (locator_codes ha hb).mpr ⟨Or.inl (by decide), trivial, report_apart _ (by decide)⟩

/-- AZ00 and BH00 are one code. -/
theorem locator_codes_shared :
    ¬ ∀ a b : G15, a.Accepted → b.Accepted →
        (encodeG15 a = encodeG15 b → a = b) ∧ a.Fits ∧ b.Fits := by
  intro h
  have hz : (G15.grid (.ofLiteral "AZ00" rfl (by decide))).Accepted :=
    ⟨by decide, by decide, by decide, by decide, by decide⟩
  have hh : (G15.grid (.ofLiteral "BH00" rfl (by decide))).Accepted :=
    ⟨by decide, by decide, by decide, by decide, by decide⟩
  obtain ⟨hsame, -⟩ := h _ _ hz hh
  have heq := hsame (by decide)
  have hchars := congrArg CString.chars (G15.grid.inj heq)
  exact absurd hchars (by decide)

end MiniHF.Ftx
