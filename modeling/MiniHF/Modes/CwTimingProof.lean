import MiniHF.Modes.CwProof

/-!
# The gaps of a Morse sequence

The law of Morse timing is written down as a sequence: marks of a character are one
dot apart, characters of a word three, and words as far as `between` says. What the
code makes of words with single spaces is this sequence with nine dots between
words: the space adds six to the one that is there, and the character behind it adds
two more. So the law holds where there is no gap between words.
-/

namespace MiniHF.Modes.Cw

open Buffer Ftx

/-! ## The law -/

/-- The last gap, if there is one, becomes `gap`. -/
def lastGap (gap : Nat) : List (Nat × Nat) → List (Nat × Nat)
  | [] => []
  | [(on, _)] => [(on, gap)]
  | p :: q :: ps => p :: lastGap gap (q :: ps)

/-- The characters of a word, three dots apart, and `gap` behind the last. -/
def timedWord (d gap : Nat) : List (List UInt8) → List (Nat × Nat)
  | [] => []
  | [code] => lastGap gap (keyed d code)
  | code :: next :: word => lastGap (3 * d) (keyed d code) ++ timedWord d gap (next :: word)

/-- Words, `between` apart, and `gap` behind the last. -/
def timedText (d between gap : Nat) : List (List (List UInt8)) → List (Nat × Nat)
  | [] => []
  | [word] => timedWord d gap word
  | word :: next :: words =>
      timedWord d between word ++ timedText d between gap (next :: words)

/-- Words with a space between any two. -/
def spaced (words : List (List UInt8)) : List UInt8 := List.intercalate [space] words

/-- A word the table can send. -/
structure Sendable (w : List UInt8) : Prop where
  nonempty : w ≠ []
  supported : ∀ c ∈ w, (morseCode (toupper c)).isSome = true

/-! ## Gaps -/

theorem lastGap_snoc (gap : Nat) (ps : List (Nat × Nat)) (on off : Nat) :
    lastGap gap (ps ++ [(on, off)]) = ps ++ [(on, gap)] := by
  induction ps with
  | nil => rfl
  | cons p ps ih =>
      cases ps with
      | nil => rfl
      | cons q ps => rw [List.cons_append, List.cons_append, lastGap, ← List.cons_append, ih]; rfl

/-- Behind something, only the last gap of what follows changes. -/
theorem stretch_append (k : Nat) (ps : List (Nat × Nat)) {qs : List (Nat × Nat)} (h : qs ≠ []) :
    stretch k (ps ++ qs) = ps ++ stretch k qs := by
  obtain ⟨front, ⟨on, off⟩, rfl⟩ : ∃ front last, qs = front ++ [last] :=
    ⟨qs.dropLast, qs.getLast h, (List.dropLast_concat_getLast h).symm⟩
  rw [← List.append_assoc, stretch_snoc, stretch_snoc, List.append_assoc]

/-- A code ends in a mark and the gap behind it. -/
theorem keyed_last (d : Nat) {code : List UInt8} (h : code ≠ []) :
    ∃ front on, keyed d code = front ++ [(on, d)] := by
  refine ⟨keyed d code.dropLast, markLength d (code.getLast h), ?_⟩
  have hcode := List.dropLast_concat_getLast h
  unfold keyed
  rw [← List.map_singleton (f := fun mark => (markLength d mark, d)), ← List.map_append, hcode]

/-- A word ends in a mark and the gap asked for. -/
theorem timedWord_last (d : Nat) {word : List (List UInt8)} (hne : word ≠ [])
    (hcodes : ∀ code ∈ word, code ≠ []) :
    ∃ front on, ∀ gap, timedWord d gap word = front ++ [(on, gap)] := by
  induction word with
  | nil => exact absurd rfl hne
  | cons code word ih =>
      cases word with
      | nil =>
          obtain ⟨front, on, hkeyed⟩ := keyed_last d (hcodes code (by simp))
          refine ⟨front, on, fun gap => ?_⟩
          rw [timedWord, hkeyed, lastGap_snoc]
      | cons next word =>
          obtain ⟨front, on, hrest⟩ := ih (by simp) (fun c hc => hcodes c (by simp [hc]))
          refine ⟨lastGap (3 * d) (keyed d code) ++ front, on, fun gap => ?_⟩
          rw [timedWord, hrest, List.append_assoc]

/-! ## The code's gaps -/

theorem codes_ne_nil {w : List UInt8} (h : Sendable w) :
    codes w ≠ [] ∧ ∀ code ∈ codes w, code ≠ [] := by
  constructor
  · cases w with
    | nil => exact absurd rfl h.nonempty
    | cons c w =>
        obtain ⟨code, hcode⟩ := Option.isSome_iff_exists.mp (h.supported c (by simp))
        rw [codes_cons_some w hcode]
        simp
  · intro code hcode
    obtain ⟨c, -, hc⟩ := List.mem_filterMap.mp hcode
    exact (morseCode_marks hc).1

/-- **A word** makes the gap before it two dots longer and has three dots between its
characters. -/
theorem foldl_word {d : Nat} {w : List UInt8} (h : Sendable w) (ps : List (Nat × Nat)) :
    w.foldl (keyChar d) ps = stretch (2 * d) ps ++ timedWord d d (codes w) := by
  obtain ⟨hne, hall⟩ := h
  induction w generalizing ps with
  | nil => exact absurd rfl hne
  | cons c w ih =>
      obtain ⟨code, hcode⟩ := Option.isSome_iff_exists.mp (hall c (by simp))
      have hsp : toupper c ≠ space := by
        intro hsp
        rw [morseCode_of_space hsp] at hcode
        cases hcode
      have hstep : keyChar d ps c = stretch (2 * d) ps ++ keyed d code := by
        rw [keyChar, if_neg hsp, hcode]
      obtain ⟨front, on, hkeyed⟩ := keyed_last d (morseCode_marks hcode).1
      have hsame : lastGap d (keyed d code) = keyed d code := by rw [hkeyed, lastGap_snoc]
      rw [List.foldl_cons, hstep, codes_cons_some w hcode]
      cases w with
      | nil =>
          show stretch (2 * d) ps ++ keyed d code = _ ++ lastGap d (keyed d code)
          rw [hsame]
      | cons c' w =>
          have hrest : ∀ x ∈ c' :: w, (morseCode (toupper x)).isSome = true :=
            fun x hx => hall x (by simp [hx])
          obtain ⟨code', hcode'⟩ := Option.isSome_iff_exists.mp (hrest c' (by simp))
          -- the gap behind this character: one dot, and two for the next one
          have hgap : stretch (2 * d) (keyed d code) = lastGap (3 * d) (keyed d code) := by
            rw [hkeyed, stretch_snoc, lastGap_snoc, show d + 2 * d = 3 * d by omega]
          rw [ih _ (by simp) hrest, stretch_append _ _ (by rw [hkeyed]; simp), hgap,
            codes_cons_some w hcode', timedWord, List.append_assoc]

/-- A gap is made longer by lengthening it. -/
theorem stretch_timedWord {d : Nat} {w : List UInt8} (h : Sendable w) (k gap : Nat)
    (ps : List (Nat × Nat)) :
    stretch k (ps ++ timedWord d gap (codes w)) = ps ++ timedWord d (gap + k) (codes w) := by
  obtain ⟨hne, hcodes⟩ := codes_ne_nil h
  obtain ⟨front, on, hlast⟩ := timedWord_last d hne hcodes
  rw [hlast, hlast, ← List.append_assoc, stretch_snoc, List.append_assoc]

/-- **Nine dots between words.** -/
theorem foldl_spaced {d : Nat} {words : List (List UInt8)} (h : ∀ w ∈ words, Sendable w)
    (hne : words ≠ []) (ps : List (Nat × Nat)) :
    (spaced words).foldl (keyChar d) ps
      = stretch (2 * d) ps ++ timedText d (9 * d) d (words.map codes) := by
  induction words generalizing ps with
  | nil => exact absurd rfl hne
  | cons w words ih =>
      have hw := h w (by simp)
      cases words with
      | nil =>
          have hone : spaced [w] = w := by simp [spaced]
          rw [hone, foldl_word hw]
          rfl
      | cons next words =>
          have hsplit : spaced (w :: next :: words) = w ++ space :: spaced (next :: words) := by
            unfold spaced
            rw [List.intercalate_cons_cons, List.append_assoc, List.singleton_append]
          have hspace : ∀ qs, keyChar d qs space = stretch (6 * d) qs := by
            intro qs
            exact if_pos (by decide)
          rw [hsplit, List.foldl_append, List.foldl_cons, foldl_word hw, hspace,
            stretch_timedWord hw, ih (fun v hv => h v (by simp [hv])) (by simp),
            stretch_timedWord hw, show d + 6 * d + 2 * d = 9 * d by omega, List.append_assoc]
          rfl

/-- The sequence of words with single spaces. -/
theorem keying_spaced {d : Nat} {words : List (List UInt8)} (h : ∀ w ∈ words, Sendable w) :
    keying d (spaced words) = timedText d (9 * d) d (words.map codes) := by
  by_cases hne : words = []
  · subst hne
    rfl
  · exact foldl_spaced h hne []

/-! ## Where the law holds -/

/-- Gaps between words that are told apart make sequences that are. -/
theorem timedText_between {d g₁ g₂ gap₁ gap₂ : Nat} {words : List (List UInt8)}
    (h : ∀ w ∈ words, Sendable w) (hlen : 1 < words.length)
    (hg : UInt32.ofNat g₁ ≠ UInt32.ofNat g₂) :
    symbolsOf (timedText d g₁ gap₁ (words.map codes))
      ≠ symbolsOf (timedText d g₂ gap₂ (words.map codes)) := by
  match words, hlen with
  | w :: next :: words, _ =>
      obtain ⟨hne, hcodes⟩ := codes_ne_nil (h w (by simp))
      obtain ⟨front, on, hlast⟩ := timedWord_last d hne hcodes
      intro heq
      simp only [List.map_cons, timedText, symbolsOf_append, hlast] at heq
      have hfront := List.append_inj_left heq (by simp)
      have hpair := List.append_cancel_left hfront
      injection hpair with _ hpair
      injection hpair with hup
      injection hup with _ hus
      exact hg hus

theorem dotOf_eq (wpm : UInt32) : dotOf wpm = 1200000 / wpm.toNat := UInt32.toNat_div _ _

/-- What is played of words with single spaces. -/
theorem played_spaced {words : List (List UInt8)} (h : ∀ w ∈ words, Sendable w) {malloc : Malloc}
    {mem : Vector TxSymbol _} (hmem : malloc (estimatedCapacity (spaced words)) = some mem)
    (wpm : UInt32) (seq : SequenceRecord) :
    ∃ out, generateCwSequence malloc (spaced words) wpm seq = .ok out ∧
      out.played = symbolsOf
        (timedText (dotOf wpm) (9 * dotOf wpm) (dotOf wpm) (words.map codes)) := by
  obtain ⟨hgen, hlen⟩ := generate_spec hmem wpm seq
  refine ⟨_, hgen, ?_⟩
  show (symbolsOf (keying (dotOf wpm) (spaced words))).take (estimatedCapacity (spaced words)) = _
  rw [← hlen, List.take_length, keying_spaced h]

/-- The law on a text: the gap behind the last word is not said. -/
def Timed (malloc : Malloc) (words : List (List UInt8)) (wpm : UInt32) (seq : SequenceRecord) :
    Prop :=
  let d := 1200000 / wpm.toNat
  ∃ out gap, generateCwSequence malloc (spaced words) wpm seq = .ok out ∧
    out.played = symbolsOf (timedText d (7 * d) gap (words.map codes))

/-- Nine dots are not seven. -/
theorem not_timed {words : List (List UInt8)} (h : ∀ w ∈ words, Sendable w)
    (hlen : 1 < words.length) {wpm : UInt32} (hwpm : 1 ≤ wpm.toNat ∧ wpm.toNat ≤ 1200000)
    {malloc : Malloc} {mem : Vector TxSymbol _}
    (hmem : malloc (estimatedCapacity (spaced words)) = some mem) (seq : SequenceRecord) :
    ¬ Timed malloc words wpm seq := by
  rintro ⟨out, gap, hout, hplayed⟩
  obtain ⟨out', hout', hplayed'⟩ := played_spaced h hmem wpm seq
  obtain rfl := Except.ok.inj (hout.symm.trans hout')
  have hpos : 1 ≤ dotOf wpm := by
    rw [dotOf_eq]
    exact (Nat.one_le_div_iff hwpm.1).mpr hwpm.2
  have hle := dotOf_le wpm
  rw [hplayed', ← dotOf_eq] at hplayed
  refine timedText_between h hlen ?_ hplayed
  intro heq
  have := congrArg UInt32.toNat heq
  rw [UInt32.toNat_ofNat', UInt32.toNat_ofNat'] at this
  omega

/-- **Morse timing.** Marks and characters are as far apart as they should be at every speed. Words
are not, so the law holds of a text exactly when it is one word. -/
theorem morse_timing {words : List (List UInt8)} (h : ∀ w ∈ words, Sendable w) {wpm : UInt32}
    (hwpm : 1 ≤ wpm.toNat ∧ wpm.toNat ≤ 1200000) {malloc : Malloc} {mem : Vector TxSymbol _}
    (hmem : malloc (estimatedCapacity (spaced words)) = some mem) (seq : SequenceRecord) :
    Timed malloc words wpm seq ↔ words.length ≤ 1 := by
  constructor
  · intro htimed
    refine Nat.le_of_not_lt ?_
    intro hlen
    exact not_timed h hlen hwpm hmem seq htimed
  · intro hlen
    obtain ⟨out, hout, hplayed⟩ := played_spaced h hmem wpm seq
    refine ⟨out, dotOf wpm, hout, ?_⟩
    rw [hplayed, ← dotOf_eq]
    -- without a second word nothing asks how far words are apart
    match words, hlen with
    | [], _ => rfl
    | [w], _ => rfl

theorem sendable_of_all {w : List UInt8} (hne : w ≠ [])
    (h : w.all (fun c => (morseCode (toupper c)).isSome) = true) : Sendable w :=
  ⟨hne, List.all_eq_true.mp h⟩

/-- Memory that is never short. -/
def zeroed : Malloc := fun n => some (Vector.replicate n ⟨0, 0, false⟩)

theorem morse_timing_paris :
    Timed zeroed [literal "paris"] 20 ⟨0, none, 0, 0, false⟩ :=
  (morse_timing (by
    intro w hw
    rw [List.mem_singleton.mp hw]
    exact sendable_of_all (by decide) (by decide)) (by decide) rfl _).mpr (by decide)

/-- "e e": the gap is nine dots. -/
theorem morse_timing_words :
    ¬ ∀ (words : List (List UInt8)), (∀ w ∈ words, Sendable w) → ∀ wpm : UInt32,
        1 ≤ wpm.toNat ∧ wpm.toNat ≤ 1200000 → ∀ (malloc : Malloc) (mem : Vector TxSymbol _),
        malloc (estimatedCapacity (spaced words)) = some mem → ∀ seq,
          Timed malloc words wpm seq := by
  intro hall
  have hwords : ∀ w ∈ [literal "e", literal "e"], Sendable w := by
    intro w hw
    have hw : w = literal "e" := by simpa using hw
    rw [hw]
    exact sendable_of_all (by decide) (by decide)
  exact @not_timed _ hwords (by decide) 20 (by decide) zeroed _ rfl ⟨0, none, 0, 0, false⟩
    (hall _ hwords 20 (by decide) zeroed _ rfl _)

end MiniHF.Modes.Cw
