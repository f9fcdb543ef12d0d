import MiniHF.Modes.CallsignProof

/-!
# The 28-bit tokens

Six kinds of token share the numbers below `2^28`, each kind in an interval of its
own. Inside its interval a kind is a numeral: three decimal digits, up to four
letters in base 27 without a zero, a hash as it is, or six places of a callsign
with an alphabet each. A callsign of one or two characters, a digit and letters is
shifted until the digit is in the third place, so a short prefix leaves a space in
front, and only there.
-/

namespace MiniHF.Ftx

/-! ## Tokens -/

/-- A letter or a digit. -/
def isAlnum (c : UInt8) : Bool := isDigit c || isLetter c

/-- A callsign cut at its last digit. -/
structure StandardParts (pre : List UInt8) (d : UInt8) (suf : List UInt8) : Prop where
  /-- One or two characters in front of the digit. -/
  prefixed : pre.length = 1 ∨ pre.length = 2
  alnum : ∀ c ∈ pre, isAlnum c = true
  digit : isDigit d = true
  /-- At most three letters behind it. -/
  short : suf.length ≤ 3
  letters : ∀ c ∈ suf, isLetter c = true

/-- A standard callsign. -/
def StandardCall (s : List UInt8) : Prop :=
  ∃ pre d suf, s = pre ++ d :: suf ∧ StandardParts pre d suf

/-- What a `c28` field is meant to hold. -/
def C28.Token : C28 → Prop
  | .de => True
  | .qrz => True
  | .cq => True
  | .cqMod modifier =>
      (modifier.chars.length = 3 ∧ ∀ c ∈ modifier.chars, isDigit c = true)
        ∨ (1 ≤ modifier.chars.length ∧ ∀ c ∈ modifier.chars, isLetter c = true)
  | .hash22 hash => hash.toNat < 1 <<< 22
  | .callsign call => StandardCall call.chars
  | .other => False

/-- The same token, letter case apart. -/
def C28.SameToken : C28 → C28 → Prop
  | .de, .de => True
  | .qrz, .qrz => True
  | .cq, .cq => True
  | .cqMod m, .cqMod n => m.chars.map upper = n.chars.map upper
  | .hash22 h, .hash22 k => h = k
  | .callsign s, .callsign t => s.chars.map upper = t.chars.map upper
  | _, _ => False

/-- The kinds of token. -/
inductive Kind where
  | de
  | qrz
  | cq
  | cqDigits
  | cqLetters
  | hash22
  | callsign

/-- `encode_c28` takes an unknown token for DE. -/
def C28.kind : C28 → Kind
  | .de => .de
  | .qrz => .qrz
  | .cq => .cq
  | .cqMod modifier => if modifier.chars.all isDigit then .cqDigits else .cqLetters
  | .hash22 _ => .hash22
  | .callsign _ => .callsign
  | .other => .de

/-- The first and the last number of a kind. -/
def Kind.interval : Kind → Nat × Nat
  | .de => (0, 0)
  | .qrz => (1, 1)
  | .cq => (2, 2)
  | .cqDigits => (3, 1002)
  | .cqLetters => (1004, 532443)
  | .hash22 => (2063592, 6257895)
  | .callsign => (6257896, 268435455)

/-- `n` is a number of the kind. -/
def Kind.Has (k : Kind) (n : Nat) : Prop := k.interval.1 ≤ n ∧ n ≤ k.interval.2

/-- No number belongs to two kinds. -/
theorem Kind.has_unique {j k : Kind} {n : Nat} (hj : j.Has n) (hk : k.Has n) : j = k := by
  unfold Kind.Has at hj hk
  cases j <;> cases k <;> first
    | rfl
    | (simp only [Kind.interval] at hj hk
       omega)

/-! ## CQ with digits -/

theorem letter_not_digit {c : UInt8} (h : isLetter c = true) : isDigit c = false := by
  cases hd : isDigit c with
  | false => rfl
  | true =>
      have hb : 48 ≤ c.toNat ∧ c.toNat ≤ 57 := between_bounds hd
      rw [isLetter, upper_digit hd] at h
      have hb' : 65 ≤ c.toNat ∧ c.toNat ≤ 90 := between_bounds h
      omega

theorem digit_inj {c d : UInt8} (hc : isDigit c = true) (hd : isDigit d = true)
    (h : digit c = digit d) : c = d := by
  have hb : 48 ≤ c.toNat ∧ c.toNat ≤ 57 := between_bounds hc
  have hb' : 48 ≤ d.toNat ∧ d.toNat ≤ 57 := between_bounds hd
  have h0 : '0'.toNat = 48 := rfl
  unfold digit at h
  exact UInt8.toNat_inj.mp (by omega)

/-- Three digits follow `CQ` and `CQ` itself. -/
theorem encodeC28_digits {modifier : CString 4} (hlen : modifier.chars.length = 3)
    (hdigits : ∀ c ∈ modifier.chars, isDigit c = true) :
    (encodeC28 (.cqMod modifier)).toNat = 3 + Numeral.value 10 digit modifier.chars ∧
      Numeral.value 10 digit modifier.chars < 1000 := by
  have hlt : Numeral.value 10 digit modifier.chars < Nat.pow 10 modifier.chars.length :=
    Numeral.value_lt (fun c hc => Nat.lt_succ_of_le (digit_le (hdigits c hc)))
  rw [hlen] at hlt
  have hlt : Numeral.value 10 digit modifier.chars < 1000 := hlt
  refine ⟨?_, hlt⟩
  have hall : (modifier.chars.all (between '0' '9') && modifier.chars.length == 3) = true := by
    rw [Bool.and_eq_true, List.all_eq_true, beq_iff_eq]
    exact ⟨hdigits, hlen⟩
  unfold encodeC28
  dsimp only
  rw [if_neg (by omega), if_pos hall]
  match hs : modifier.chars, hlen with
  | [x, y, z], _ =>
      rw [hs] at hlt
      have hval : Numeral.value 10 digit [x, y, z] = digit x * 100 + digit y * 10 + digit z := by
        simp only [Numeral.value, List.foldl_cons, List.foldl_nil]
        omega
      rw [hval] at hlt ⊢
      show (UInt32.ofNat (3 + (digit x * 100 + digit y * 10 + digit z))).toNat = _
      rw [UInt32.toNat_ofNat']
      omega

/-! ## CQ with letters -/

/-- The digit of a letter: 1 to 26, and 0 for anything else. -/
def letterDigit (c : UInt8) : Nat := if between 'A' 'Z' c then letter c + 1 else 0

theorem letterDigit_lt (c : UInt8) : letterDigit c < 27 := by
  unfold letterDigit
  split
  · next h =>
      have hle : letter c ≤ 25 := letter_le h
      omega
  · omega

theorem letterDigit_inj {c d : UInt8} (hc : between 'A' 'Z' c = true ∨ c = space)
    (hd : between 'A' 'Z' d = true ∨ d = space) (h : letterDigit c = letterDigit d) : c = d := by
  have hA : 'A'.toNat = 65 := rfl
  have hspace : letterDigit space = 0 := by decide
  have hletter : ∀ {x : UInt8}, between 'A' 'Z' x = true →
      letterDigit x = x.toNat - 64 ∧ 65 ≤ x.toNat := by
    intro x hx
    have hb : 65 ≤ x.toNat ∧ x.toNat ≤ 90 := between_bounds hx
    rw [letterDigit, if_pos hx, letter]
    omega
  rcases hc with hc | rfl
  · obtain ⟨hcv, hcb⟩ := hletter hc
    rcases hd with hd | rfl
    · obtain ⟨hdv, hdb⟩ := hletter hd
      exact UInt8.toNat_inj.mp (by omega)
    · omega
  · rcases hd with hd | rfl
    · obtain ⟨hdv, hdb⟩ := hletter hd
      omega
    · rfl

theorem cqLetters_eq (s : List UInt8) :
    cqLetters s = Numeral.value 27 letterDigit (s.map upper) := by
  rw [Numeral.value, List.foldl_map]
  rfl

/-- No letter is a space, and no digit is. -/
theorem upper_ne_space_of_alnum {c : UInt8} (h : isAlnum c = true) : upper c ≠ space := by
  have hspace : space.toNat = 32 := rfl
  intro hc
  rcases Bool.or_eq_true_iff.mp h with hdigit | hletter
  · have hb : 48 ≤ c.toNat ∧ c.toNat ≤ 57 := between_bounds hdigit
    rw [upper_digit hdigit] at hc
    rw [hc] at hb
    omega
  · have hb : 65 ≤ (upper c).toNat ∧ (upper c).toNat ≤ 90 := between_bounds hletter
    rw [hc] at hb
    omega

theorem isAlnum_of_letter {c : UInt8} (h : isLetter c = true) : isAlnum c = true :=
  Bool.or_eq_true_iff.mpr (Or.inr h)

/-- A word of letters and digits has no leading space to lose. -/
theorem dropWhile_alnum {u : List UInt8} (hu : ∀ c ∈ u, isAlnum c = true) :
    (u.map upper).dropWhile (· == space) = u.map upper := by
  cases u with
  | nil => rfl
  | cons c u =>
      have hc := upper_ne_space_of_alnum (hu c List.mem_cons_self)
      rw [List.map_cons, List.dropWhile_cons_of_neg (by simpa using hc)]

/-- **Letters are a numeral without a zero**: a shorter word is one with spaces in front, and these
are the zeros. -/
theorem cqLetters_inj {s t : List UInt8} (hs : s.length ≤ 4) (ht : t.length ≤ 4)
    (hsl : ∀ c ∈ s, isLetter c = true) (htl : ∀ c ∈ t, isLetter c = true)
    (h : cqLetters s = cqLetters t) : s.map upper = t.map upper := by
  have hzero : letterDigit space = 0 := by decide
  rw [cqLetters_eq, cqLetters_eq, ← Numeral.value_leftpad hzero 4 (s.map upper),
    ← Numeral.value_leftpad hzero 4 (t.map upper)] at h
  have hplace : ∀ {u : List UInt8}, (∀ c ∈ u, isLetter c = true) →
      ∀ c ∈ List.leftpad 4 space (u.map upper), between 'A' 'Z' c = true ∨ c = space := by
    intro u hu c hc
    rcases List.mem_append.mp hc with hc | hc
    · exact Or.inr (List.eq_of_mem_replicate hc)
    · obtain ⟨d, hd, rfl⟩ := List.mem_map.mp hc
      exact Or.inl (hu d hd)
  have hlen : ∀ {u : List UInt8}, u.length ≤ 4 → (u.map upper).length ≤ 4 := by
    intro u hu
    rwa [List.length_map]
  have hpad : List.leftpad 4 space (s.map upper) = List.leftpad 4 space (t.map upper) := by
    refine Numeral.value_inj ?_ (fun c _ => letterDigit_lt c) (fun c _ => letterDigit_lt c)
      (fun c hc d hd => letterDigit_inj (hplace hsl c hc) (hplace htl d hd)) h
    rw [List.length_leftpad, List.length_leftpad, Nat.max_eq_left (hlen hs),
      Nat.max_eq_left (hlen ht)]
  have hdrop := (Padding.leftpad_eq_iff (hlen hs) (hlen ht)).mp hpad
  rwa [dropWhile_alnum fun c hc => isAlnum_of_letter (hsl c hc),
    dropWhile_alnum fun c hc => isAlnum_of_letter (htl c hc)] at hdrop

/-- One to four letters stand behind the digits. A word is not the number 0, which is the empty
one. -/
theorem encodeC28_letters {modifier : CString 4} (hlen : 1 ≤ modifier.chars.length)
    (hletters : ∀ c ∈ modifier.chars, isLetter c = true) :
    (encodeC28 (.cqMod modifier)).toNat = 1003 + cqLetters modifier.chars ∧
      1 ≤ cqLetters modifier.chars ∧ cqLetters modifier.chars < 531441 := by
  have hlt := cqLetters_lt modifier
  have hpos : cqLetters modifier.chars ≠ 0 := by
    intro h0
    have hnil := cqLetters_inj modifier.fits (by decide) hletters (t := []) (by simp) h0
    rw [List.map_eq_nil_iff.mp hnil] at hlen
    exact absurd hlen (by decide)
  refine ⟨?_, by omega, hlt⟩
  have hnot : ¬ (modifier.chars.all (between '0' '9') && modifier.chars.length == 3) = true := by
    intro hall
    rw [Bool.and_eq_true, List.all_eq_true] at hall
    obtain ⟨c, hc⟩ := List.exists_mem_of_length_pos hlen
    have hdigit : isDigit c = true := hall.1 c hc
    rw [letter_not_digit (hletters c hc)] at hdigit
    exact absurd hdigit (by decide)
  unfold encodeC28
  dsimp only
  rw [if_neg (by omega), if_neg hnot, UInt32.toNat_ofNat']
  omega

/-! ## Callsigns -/

/-- The digit a standard callsign is cut at is the one `encode_c28` finds. -/
theorem lastDigit_standard {pre : List UInt8} {d : UInt8} {suf : List UInt8}
    (h : StandardParts pre d suf) : lastDigit ((pre ++ d :: suf).map upper) = some pre.length := by
  have hd : between '0' '9' (upper d) = true := by rw [upper_digit h.digit]; exact h.digit
  have hletter : ∀ c ∈ suf, between '0' '9' (upper c) = false := by
    intro c hc
    refine between_eq_false (Or.inr ?_)
    have hb : 65 ≤ (upper c).toNat ∧ (upper c).toNat ≤ 90 := between_bounds (h.letters c hc)
    have h9 : '9'.toUInt8.toNat = 57 := rfl
    omega
  match hpre : pre, h.prefixed with
  | [p], _ =>
      -- the digit second, and a letter or nothing third
      cases suf with
      | nil => simp [lastDigit, charAt, List.range_succ, hd]
      | cons c suf =>
          have hc := hletter c (by simp)
          simp [lastDigit, charAt, List.range_succ, hd, hc]
  | [p, q], _ => simp [lastDigit, charAt, List.range_succ, hd]

/-- **The six places of a standard callsign**: what is missing of a two-character prefix is in
front, what is missing of three letters behind. -/
theorem std6_standard {pre : List UInt8} {d : UInt8} {suf : List UInt8}
    (h : StandardParts pre d suf) :
    std6 ((pre ++ d :: suf).map upper)
      = List.leftpad 2 space (pre.map upper) ++ d :: List.rightpad 3 space (suf.map upper) := by
  have hpre : (List.leftpad 2 space (pre.map upper)).length = 2 := by
    rw [List.length_leftpad, List.length_map]
    rcases h.prefixed with hlen | hlen <;> omega
  have hpad : List.replicate 6 space
      = List.replicate (3 - suf.length) space ++ List.replicate (3 + suf.length) space := by
    rw [List.replicate_append_replicate]
    congr 1
    have := h.short
    omega
  have hsuf : (List.rightpad 3 space (suf.map upper)).length = 3 := by
    rw [List.length_rightpad, List.length_map]
    exact Nat.max_eq_left h.short
  have hplaces : List.replicate (2 - pre.length) space ++ (pre ++ d :: suf).map upper
        ++ List.replicate 6 space
      = (List.leftpad 2 space (pre.map upper) ++ d :: List.rightpad 3 space (suf.map upper))
        ++ List.replicate (3 + suf.length) space := by
    rw [hpad, List.leftpad, List.rightpad, List.map_append, List.map_cons, upper_digit h.digit,
      List.length_map, List.length_map]
    simp only [List.append_assoc, List.cons_append]
  unfold std6
  rw [lastDigit_standard h]
  dsimp only
  rw [hplaces, List.take_left']
  rw [List.length_append, List.length_cons, hpre, hsuf]

theorem upper_mem_a2 {c : UInt8} (h : isAlnum c = true) : upper c ∈ a2 := by
  rcases Bool.or_eq_true_iff.mp h with h | h
  · rw [upper_digit h]
    exact mem_of_digit (by decide) h
  · exact mem_of_upper (by decide) h

/-- The places of a callsign hold characters of their alphabets. -/
structure Places (s : List UInt8) : Prop where
  length : s.length = 6
  first : charAt s 0 ∈ a1
  second : charAt s 1 ∈ a2
  third : charAt s 2 ∈ a3
  behind : ∀ i, 3 ≤ i → i < 6 → charAt s i ∈ a4

theorem places_standard {s : List UInt8} (h : StandardCall s) : Places (std6 (s.map upper)) := by
  obtain ⟨pre, d, suf, rfl, hp⟩ := h
  have hsuf : ∀ c ∈ List.rightpad 3 space (suf.map upper), c ∈ a4 := by
    intro c hc
    rcases List.mem_append.mp hc with hc | hc
    · obtain ⟨e, he, rfl⟩ := List.mem_map.mp hc
      exact mem_of_upper (by decide) (hp.letters e he)
    · rw [List.eq_of_mem_replicate hc]
      decide
  have hlen := std6_length ((pre ++ d :: suf).map upper)
  have hd : d ∈ a3 := mem_of_digit (by decide) hp.digit
  have ha1 : ∀ c ∈ a2, c ∈ a1 := fun c hc => List.mem_cons_of_mem _ hc
  have hr : (List.rightpad 3 space (suf.map upper)).length = 3 := by
    rw [List.length_rightpad, List.length_map]
    exact Nat.max_eq_left hp.short
  rw [std6_standard hp] at hlen ⊢
  generalize List.rightpad 3 space (suf.map upper) = r at hsuf hlen hr
  have hbehind : ∀ (x y : UInt8) (i : Nat), 3 ≤ i → i < 6 → charAt (x :: y :: d :: r) i ∈ a4 := by
    intro x y i hlo hhi
    obtain ⟨j, rfl⟩ : ∃ j, i = j + 3 := ⟨i - 3, by omega⟩
    refine hsuf _ ?_
    show r.getD j 0 ∈ r
    rw [List.getD_eq_getElem?_getD, List.getElem?_eq_getElem (by omega), Option.getD_some]
    exact List.getElem_mem _
  match pre, hp.prefixed with
  | [p], _ =>
      have hpa := upper_mem_a2 (hp.alnum p (by simp))
      have hspace : space ∈ a1 := by decide
      exact ⟨hlen, hspace, hpa, hd, hbehind space (upper p)⟩
  | [p, q], _ =>
      have hpa := upper_mem_a2 (hp.alnum p (by simp))
      have hqa := upper_mem_a2 (hp.alnum q (by simp))
      exact ⟨hlen, ha1 _ hpa, hqa, hd, hbehind (upper p) (upper q)⟩

/-- Six characters of their alphabets are read back from their digits. -/
theorem callDigits_inj {s t : List UInt8} (hs : Places s) (ht : Places t)
    (h : callDigits s = callDigits t) : s = t := by
  simp only [callDigits, List.cons.injEq, Prod.mk.injEq, true_and, and_true] at h
  obtain ⟨h₀, h₁, h₂, h₃, h₄, h₅⟩ := h
  refine charAt_ext (by rw [hs.length, ht.length]) ?_
  intro i hi
  rw [hs.length] at hi
  have hplace : i = 0 ∨ i = 1 ∨ i = 2 ∨ i = 3 ∨ i = 4 ∨ i = 5 := by omega
  rcases hplace with rfl | rfl | rfl | rfl | rfl | rfl
  · exact charIndex_inj hs.first ht.first h₀
  · exact charIndex_inj hs.second ht.second h₁
  · exact charIndex_inj hs.third ht.third h₂
  · exact charIndex_inj (hs.behind 3 (by omega) (by omega)) (ht.behind 3 (by omega) (by omega)) h₃
  · exact charIndex_inj (hs.behind 4 (by omega) (by omega)) (ht.behind 4 (by omega) (by omega)) h₄
  · exact charIndex_inj (hs.behind 5 (by omega) (by omega)) (ht.behind 5 (by omega) (by omega)) h₅

/-- The six places give the callsign back. -/
theorem std6_inj {s t : List UInt8} (hs : StandardCall s) (ht : StandardCall t)
    (h : std6 (s.map upper) = std6 (t.map upper)) : s.map upper = t.map upper := by
  obtain ⟨pre, d, suf, rfl, hp⟩ := hs
  obtain ⟨pre', d', suf', rfl, hp'⟩ := ht
  rw [std6_standard hp, std6_standard hp'] at h
  have hlen : ∀ {u : List UInt8}, u.length = 1 ∨ u.length = 2 → (u.map upper).length ≤ 2 := by
    intro u hu
    rw [List.length_map]
    omega
  have hleft : (List.leftpad 2 space (pre.map upper)).length
      = (List.leftpad 2 space (pre'.map upper)).length := by
    rw [List.length_leftpad, List.length_leftpad, Nat.max_eq_left (hlen hp.prefixed),
      Nat.max_eq_left (hlen hp'.prefixed)]
  obtain ⟨hpre, hrest⟩ := List.append_inj h hleft
  obtain ⟨hd, hsuf⟩ := List.cons.inj hrest
  have hpre := (Padding.leftpad_eq_iff (hlen hp.prefixed) (hlen hp'.prefixed)).mp hpre
  rw [dropWhile_alnum hp.alnum, dropWhile_alnum hp'.alnum] at hpre
  have hend : ∀ {u : List UInt8}, (∀ c ∈ u, isLetter c = true) →
      (u.map upper).getLast? ≠ some space := by
    intro u hu hlast
    obtain ⟨c, hc, hspace⟩ := List.mem_map.mp (List.mem_of_getLast? hlast)
    exact upper_ne_space_of_alnum (isAlnum_of_letter (hu c hc)) hspace
  have hsuf := Padding.rightpad_inj (hend hp.letters) (hend hp'.letters) hsuf
  rw [List.map_append, List.map_append, List.map_cons, List.map_cons, hpre, hd, hsuf]

/-! ## All kinds together -/

/-- What a token of a kind is. -/
def Kind.Holds : Kind → C28 → Prop
  | .de, c => c = .de
  | .qrz, c => c = .qrz
  | .cq, c => c = .cq
  | .cqDigits, c => ∃ m : CString 4, c = .cqMod m ∧ m.chars.length = 3 ∧
      ∀ x ∈ m.chars, isDigit x = true
  | .cqLetters, c => ∃ m : CString 4, c = .cqMod m ∧ 1 ≤ m.chars.length ∧
      ∀ x ∈ m.chars, isLetter x = true
  | .hash22, c => ∃ hash : UInt32, c = .hash22 hash ∧ hash.toNat < 4194304
  | .callsign, c => ∃ call : CString 6, c = .callsign call ∧ StandardCall call.chars

theorem Kind.holds_kind {c : C28} (h : c.Token) : c.kind.Holds c := by
  cases c with
  | de => rfl
  | qrz => rfl
  | cq => rfl
  | other => exact h.elim
  | hash22 hash => exact ⟨hash, rfl, h⟩
  | callsign call => exact ⟨call, rfl, h⟩
  | cqMod modifier =>
      rcases h with ⟨hlen, hdigits⟩ | ⟨hlen, hletters⟩
      · have hkind : (C28.cqMod modifier).kind = .cqDigits := if_pos (List.all_eq_true.mpr hdigits)
        rw [hkind]
        exact ⟨modifier, rfl, hlen, hdigits⟩
      · obtain ⟨c, hc⟩ := List.exists_mem_of_length_pos hlen
        have hnot : ¬ modifier.chars.all isDigit = true := by
          intro hall
          have hdigit := List.all_eq_true.mp hall c hc
          rw [letter_not_digit (hletters c hc)] at hdigit
          exact absurd hdigit (by decide)
        have hkind : (C28.cqMod modifier).kind = .cqLetters := if_neg hnot
        rw [hkind]
        exact ⟨modifier, rfl, hlen, hletters⟩

theorem encodeC28_hash {hash : UInt32} (h : hash.toNat < 4194304) :
    (encodeC28 (.hash22 hash)).toNat = 2063592 + hash.toNat := by
  have hbase : (2063592 : UInt32).toNat = 2063592 := rfl
  show (2063592 + hash).toNat = _
  rw [UInt32.toNat_add, hbase]
  omega

/-- **Every token has a number of its kind.** -/
theorem Kind.has_code {k : Kind} {c : C28} (h : k.Holds c) : k.Has (encodeC28 c).toNat := by
  unfold Kind.Has
  cases k with
  | de => subst h; decide
  | qrz => subst h; decide
  | cq => subst h; decide
  | cqDigits =>
      obtain ⟨modifier, rfl, hlen, hdigits⟩ := h
      obtain ⟨hcode, hlt⟩ := encodeC28_digits hlen hdigits
      simp only [hcode, Kind.interval]
      omega
  | cqLetters =>
      obtain ⟨modifier, rfl, hlen, hletters⟩ := h
      obtain ⟨hcode, hpos, hlt⟩ := encodeC28_letters hlen hletters
      simp only [hcode, Kind.interval]
      omega
  | hash22 =>
      obtain ⟨hash, rfl, hhash⟩ := h
      simp only [encodeC28_hash hhash, Kind.interval]
      omega
  | callsign =>
      obtain ⟨call, rfl, -⟩ := h
      have hlt := callNumber_lt call.noNul
      simp only [encodeC28_callsign, Kind.interval]
      omega

/-- **Inside a kind a number is a token's own**, letter case apart. -/
theorem Kind.code_inj {k : Kind} {a b : C28} (ha : k.Holds a) (hb : k.Holds b)
    (h : (encodeC28 a).toNat = (encodeC28 b).toNat) : a.SameToken b := by
  cases k with
  | de => subst ha hb; trivial
  | qrz => subst ha hb; trivial
  | cq => subst ha hb; trivial
  | cqDigits =>
      obtain ⟨m, rfl, hlen, hdigits⟩ := ha
      obtain ⟨n, rfl, hlen', hdigits'⟩ := hb
      rw [(encodeC28_digits hlen hdigits).1, (encodeC28_digits hlen' hdigits').1] at h
      have hchars : m.chars = n.chars :=
        Numeral.value_inj (by rw [hlen, hlen'])
          (fun c hc => Nat.lt_succ_of_le (digit_le (hdigits c hc)))
          (fun c hc => Nat.lt_succ_of_le (digit_le (hdigits' c hc)))
          (fun c hc d hd => digit_inj (hdigits c hc) (hdigits' d hd)) (Nat.add_left_cancel h)
      show m.chars.map upper = n.chars.map upper
      rw [hchars]
  | cqLetters =>
      obtain ⟨m, rfl, hlen, hletters⟩ := ha
      obtain ⟨n, rfl, hlen', hletters'⟩ := hb
      rw [(encodeC28_letters hlen hletters).1, (encodeC28_letters hlen' hletters').1] at h
      exact cqLetters_inj m.fits n.fits hletters hletters' (Nat.add_left_cancel h)
  | hash22 =>
      obtain ⟨x, rfl, hx⟩ := ha
      obtain ⟨y, rfl, hy⟩ := hb
      rw [encodeC28_hash hx, encodeC28_hash hy] at h
      exact UInt32.toNat_inj.mp (Nat.add_left_cancel h)
  | callsign =>
      obtain ⟨s, rfl, hs⟩ := ha
      obtain ⟨t, rfl, ht⟩ := hb
      rw [encodeC28_callsign, encodeC28_callsign] at h
      have hdigits := Numeral.mixed_inj (by rw [callDigits_bases, callDigits_bases])
        (std6_digits_lt s.noNul) (std6_digits_lt t.noNul) (Nat.add_left_cancel h)
      exact std6_inj hs ht (callDigits_inj (places_standard hs) (places_standard ht) hdigits)

/-- **The 28-bit field tells all tokens apart.** A code is below `2^28` and in the interval of its
token's kind, and two tokens with one code are the same up to letter case. -/
theorem token_field {a b : C28} (ha : a.Token) (hb : b.Token) :
    (encodeC28 a).toNat < 1 <<< 28 ∧ a.kind.Has (encodeC28 a).toNat ∧
      (encodeC28 a = encodeC28 b → a.SameToken b) := by
  have hka := Kind.holds_kind ha
  have hkb := Kind.holds_kind hb
  have hhas := Kind.has_code hka
  refine ⟨?_, hhas, ?_⟩
  · have hlast : a.kind.interval.2 < 1 <<< 28 := by
      cases a.kind <;> decide
    exact Nat.lt_of_le_of_lt hhas.2 hlast
  · intro heq
    have hcode := congrArg UInt32.toNat heq
    have hkind : a.kind = b.kind := Kind.has_unique hhas (hcode ▸ Kind.has_code hkb)
    rw [← hkind] at hkb
    exact Kind.code_inj hka hkb hcode

theorem standardCall_k1abc : StandardCall (literal "k1abc") :=
  ⟨literal "k", 0x31, literal "abc", rfl, Or.inl rfl, List.all_eq_true.mp rfl, rfl, by decide,
    List.all_eq_true.mp rfl⟩

/-- A callsign and the same one in capitals. -/
theorem token_field_k1abc :
    let a := C28.callsign (.ofLiteral "k1abc" rfl (by decide))
    let b := C28.callsign (.ofLiteral "K1ABC" rfl (by decide))
    (encodeC28 a).toNat < 1 <<< 28 ∧ Kind.callsign.Has (encodeC28 a).toNat ∧ a.SameToken b := by
  intro a b
  have hb : b.Token := ⟨literal "K", 0x31, literal "ABC", rfl, Or.inl rfl,
    List.all_eq_true.mp rfl, rfl, by decide, List.all_eq_true.mp rfl⟩
  obtain ⟨hlt, hhas, hsame⟩ := @token_field a b standardCall_k1abc hb
  exact ⟨hlt, hhas, hsame (by decide)⟩

end MiniHF.Ftx
