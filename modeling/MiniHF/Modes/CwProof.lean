import MiniHF.Modes.Cw
import MiniHF.Lib.Blocks

/-!
# What a Morse sequence says

`keying` is the sequence with numbers instead of machine words: a list of pairs, how
long the key is down and how long it is up behind that. The code writes exactly
these pairs, one after the other, into an array of the size it counted, and it is
on and off by turns for that reason alone.

Reading the sequence back only needs the gaps: a gap longer than a dot ends a
character. How long the last gap is does not matter to that, so it does not matter
either that the code makes it longer afterwards.
-/

namespace MiniHF.Modes.Cw

open Buffer Ftx

/-! ## The table -/

/-- **Every code is one to five dots and dashes.** -/
theorem morseCode_marks {c : UInt8} {code : List UInt8} (h : morseCode c = some code) :
    code ≠ [] ∧ ∀ mark ∈ code, mark = dot ∨ mark = '-'.toUInt8 := by
  have hall : morseTable.all (fun entry => !(literal entry.2).isEmpty &&
      (literal entry.2).all (fun mark => mark == dot || mark == '-'.toUInt8)) = true := by decide
  unfold morseCode at h
  obtain ⟨entry, hfind, rfl⟩ := Option.map_eq_some_iff.mp h
  have hentry := List.all_eq_true.mp hall entry (List.mem_of_find?_eq_some hfind)
  rw [Bool.and_eq_true] at hentry
  obtain ⟨hne, hmarks⟩ := hentry
  refine ⟨by simpa using hne, ?_⟩
  intro mark hmark
  simpa using List.all_eq_true.mp hmarks mark hmark

theorem morseCode_space : morseCode space = none := by decide

/-- The codes of the characters of a text that have one, upper case. -/
def codes (text : List UInt8) : List (List UInt8) :=
  text.filterMap (fun ch => morseCode (toupper ch))

theorem codes_cons_none {ch : UInt8} (text : List UInt8) (h : morseCode (toupper ch) = none) :
    codes (ch :: text) = codes text := List.filterMap_cons_none h

theorem codes_cons_some {ch : UInt8} (text : List UInt8) {code : List UInt8}
    (h : morseCode (toupper ch) = some code) : codes (ch :: text) = code :: codes text :=
  List.filterMap_cons_some h

theorem morseCode_of_space {ch : UInt8} (h : toupper ch = space) : morseCode (toupper ch) = none := by
  rw [h]
  exact morseCode_space

/-! ## The sequence in numbers -/

/-- How long the key is down for a mark. -/
def markLength (d : Nat) (mark : UInt8) : Nat := if mark = dot then d else 3 * d

/-- A code: each mark with a dot's silence behind it. -/
def keyed (d : Nat) (code : List UInt8) : List (Nat × Nat) :=
  code.map (fun mark => (markLength d mark, d))

/-- The last gap, if there is one, is made longer. -/
def stretch (k : Nat) : List (Nat × Nat) → List (Nat × Nat)
  | [] => []
  | [(on, off)] => [(on, off + k)]
  | p :: q :: ps => p :: stretch k (q :: ps)

/-- One character of the text. -/
def keyChar (d : Nat) (ps : List (Nat × Nat)) (ch : UInt8) : List (Nat × Nat) :=
  if toupper ch = space then stretch (6 * d) ps
  else
    match morseCode (toupper ch) with
    | some code => stretch (2 * d) ps ++ keyed d code
    | none => ps

/-- The sequence of a text, with a dot of `d`. -/
def keying (d : Nat) (text : List UInt8) : List (Nat × Nat) := text.foldl (keyChar d) []

theorem stretch_snoc (k : Nat) (ps : List (Nat × Nat)) (on off : Nat) :
    stretch k (ps ++ [(on, off)]) = ps ++ [(on, off + k)] := by
  induction ps with
  | nil => rfl
  | cons p ps ih =>
      cases ps with
      | nil => rfl
      | cons q ps => rw [List.cons_append, List.cons_append, stretch, ← List.cons_append, ih]; rfl

@[simp] theorem stretch_length (k : Nat) (ps : List (Nat × Nat)) :
    (stretch k ps).length = ps.length := by
  induction ps using stretch.induct with
  | case1 => rfl
  | case2 on off => rfl
  | case3 p q ps ih =>
      rw [stretch, List.length_cons, ih]
      rfl

/-! ## The symbols of a sequence -/

/-- A pair as two symbols. -/
def pairSymbols (p : Nat × Nat) : List TxSymbol :=
  [{ txOn := true, freqOffsetHz := 0, durationUs := UInt32.ofNat p.1 },
   { txOn := false, freqOffsetHz := 0, durationUs := UInt32.ofNat p.2 }]

def symbolsOf (ps : List (Nat × Nat)) : List TxSymbol := ps.flatMap pairSymbols

theorem pairSymbols_length (p : Nat × Nat) : (pairSymbols p).length = 2 := rfl

@[simp] theorem symbolsOf_length (ps : List (Nat × Nat)) : (symbolsOf ps).length = 2 * ps.length :=
  (Blocks.flatMap_length pairSymbols_length ps).trans (Nat.mul_comm _ _)

@[simp] theorem symbolsOf_append (ps qs : List (Nat × Nat)) :
    symbolsOf (ps ++ qs) = symbolsOf ps ++ symbolsOf qs := List.flatMap_append

/-- How long the key is down for a mark, in the words of the code. -/
def markUs (dotUs : UInt32) (mark : UInt8) : UInt32 := if mark = dot then dotUs else 3 * dotUs

theorem ofNat_markLength (d : Nat) (mark : UInt8) :
    UInt32.ofNat (markLength d mark) = markUs (UInt32.ofNat d) mark := by
  unfold markLength markUs
  split
  · rfl
  · rw [UInt32.ofNat_mul]
    rfl

/-! ## The code writes it -/

section Writing

variable {n d : Nat}

/-- **A gap is made longer in place.** Nothing is written when there is no symbol yet. -/
theorem stretchGap_spec {symArray : Vector TxSymbol n} {ps : List (Nat × Nat)} (k : Nat)
    (h : Written symArray (symbolsOf ps)) :
    ∃ symArray', stretchGap symArray (2 * ps.length) (UInt32.ofNat k) = .ok symArray' ∧
      Written symArray' (symbolsOf (stretch k ps)) := by
  cases List.eq_nil_or_concat ps with
  | inl hnil =>
      subst hnil
      exact ⟨symArray, rfl, h⟩
  | inr hlast =>
      obtain ⟨front, ⟨on, off⟩, rfl⟩ := hlast
      rw [List.concat_eq_append] at h ⊢
      let down : TxSymbol := { txOn := true, freqOffsetHz := 0, durationUs := UInt32.ofNat on }
      let up (us : Nat) : TxSymbol :=
        { txOn := false, freqOffsetHz := 0, durationUs := UInt32.ofNat us }
      have hsplit : ∀ us, symbolsOf (front ++ [(on, us)])
          = (symbolsOf front ++ [down]) ++ up us :: [] := by
        intro us
        rw [symbolsOf_append, List.append_assoc]
        rfl
      have hidx : 2 * (front ++ [(on, off)]).length - 1 = (symbolsOf front ++ [down]).length := by
        rw [List.length_append, List.length_append, symbolsOf_length]
        simp only [List.length_cons, List.length_nil]
        omega
      rw [hsplit] at h
      obtain ⟨symArray', hstore, hw⟩ := store_mid (up (off + k)) h
      refine ⟨symArray', ?_, by rw [stretch_snoc, hsplit]; exact hw⟩
      have hpos : 2 * (front ++ [(on, off)]).length > 0 := by
        rw [List.length_append, List.length_singleton]
        omega
      have hadd : UInt32.ofNat off + UInt32.ofNat k = UInt32.ofNat (off + k) :=
        (UInt32.ofNat_add off k).symm
      unfold stretchGap
      rw [if_pos hpos, hidx, load_mid h, ok_bind]
      show store symArray _ { txOn := false, freqOffsetHz := 0, durationUs := _ + _ } = _
      rw [hadd]
      exact hstore

/-- The marks of a code follow what is there. -/
theorem keyCode_spec {code : List UInt8} {symArray : Vector TxSymbol n} {ps : List (Nat × Nat)}
    (h : Written symArray (symbolsOf ps)) (hfit : 2 * ps.length + 2 * code.length ≤ n) :
    ∃ symArray', keyCode (UInt32.ofNat d) symArray (2 * ps.length) code
        = .ok (symArray', 2 * (ps ++ keyed d code).length) ∧
      Written symArray' (symbolsOf (ps ++ keyed d code)) := by
  induction code generalizing symArray ps with
  | nil => exact ⟨symArray, by simp [keyCode, keyed], by simpa [keyed] using h⟩
  | cons mark code ih =>
      rw [List.length_cons] at hfit
      have hlen := symbolsOf_length ps
      let down : TxSymbol :=
        { txOn := true, freqOffsetHz := 0, durationUs := UInt32.ofNat (markLength d mark) }
      let up : TxSymbol := { txOn := false, freqOffsetHz := 0, durationUs := UInt32.ofNat d }
      obtain ⟨arr₁, arr₂, h₁, h₂, hw₂⟩ := store_snoc_two down up h (by omega)
      have hnext : symbolsOf ps ++ [down, up] = symbolsOf (ps ++ [(markLength d mark, d)]) := by
        rw [symbolsOf_append]
        rfl
      rw [hnext] at hw₂
      obtain ⟨arr₃, h₃, hw₃⟩ := ih hw₂ (by
        rw [List.length_append, List.length_singleton]
        omega)
      have hkeyed : ps ++ keyed d (mark :: code)
          = ps ++ [(markLength d mark, d)] ++ keyed d code := by
        rw [List.append_assoc]
        rfl
      refine ⟨arr₃, ?_, by rw [hkeyed]; exact hw₃⟩
      have hlong : (if mark = dot then UInt32.ofNat d else 3 * UInt32.ofNat d)
          = UInt32.ofNat (markLength d mark) := (ofNat_markLength d mark).symm
      rw [hlen] at h₁ h₂
      rw [List.length_append, List.length_singleton] at h₃
      rw [keyCode]
      dsimp only
      rw [hlong, h₁, ok_bind, h₂, ok_bind, hkeyed, ← h₃]
      rfl

/-- How many marks some codes have. -/
def markCount : List (List UInt8) → Nat
  | [] => 0
  | code :: rest => code.length + markCount rest

/-- **The first pass counts a mark and a gap for each of them.** -/
theorem estimatedCapacity_eq (text : List UInt8) :
    estimatedCapacity text = 2 * markCount (codes text) := by
  have hstep : ∀ capacity, text.foldl
      (fun capacity ch =>
        let c := toupper ch
        if c = space then capacity
        else
          match morseCode c with
          | some code => capacity + code.length * 2
          | none => capacity) capacity = capacity + 2 * markCount (codes text) := by
    induction text with
    | nil => intro capacity; rfl
    | cons ch text ih =>
        intro capacity
        rw [List.foldl_cons, ih]
        dsimp only
        by_cases hsp : toupper ch = space
        · rw [if_pos hsp, codes_cons_none text (morseCode_of_space hsp)]
        · rw [if_neg hsp]
          cases hc : morseCode (toupper ch) with
          | none => rw [codes_cons_none text hc]
          | some code =>
              rw [codes_cons_some text hc, markCount]
              show capacity + code.length * 2 + _ = _
              omega
  have := hstep 0
  rwa [Nat.zero_add] at this

/-- **The second pass.** With room for the characters that are left, it writes them all and faults
nowhere. -/
theorem fill_spec {text : List UInt8} {symArray : Vector TxSymbol n} {ps : List (Nat × Nat)}
    (h : Written symArray (symbolsOf ps))
    (hfit : 2 * ps.length + 2 * markCount (codes text) ≤ n) :
    ∃ symArray', fill (UInt32.ofNat d) symArray (2 * ps.length) text
        = .ok (symArray', 2 * (text.foldl (keyChar d) ps).length) ∧
      Written symArray' (symbolsOf (text.foldl (keyChar d) ps)) ∧
      (text.foldl (keyChar d) ps).length = ps.length + markCount (codes text) := by
  induction text generalizing symArray ps with
  | nil => exact ⟨symArray, rfl, h, rfl⟩
  | cons ch text ih =>
      rw [fill, List.foldl_cons]
      dsimp only
      by_cases hsp : toupper ch = space
      · -- a space only makes the last gap longer
        have hcodes := codes_cons_none text (morseCode_of_space hsp)
        have hstep : keyChar d ps ch = stretch (6 * d) ps := by rw [keyChar, if_pos hsp]
        have hmul : 6 * UInt32.ofNat d = UInt32.ofNat (6 * d) := (UInt32.ofNat_mul 6 d).symm
        obtain ⟨arr₁, h₁, hw₁⟩ := stretchGap_spec (6 * d) h
        rw [hcodes] at hfit ⊢
        obtain ⟨arr₂, h₂, hw₂, hlen⟩ := ih hw₁ (by rwa [stretch_length])
        rw [stretch_length] at h₂ hlen
        rw [if_pos hsp, hstep, hmul, h₁, ok_bind]
        exact ⟨arr₂, h₂, hw₂, hlen⟩
      · rw [if_neg hsp]
        cases hc : morseCode (toupper ch) with
        | none =>
            have hcodes := codes_cons_none text hc
            have hstep : keyChar d ps ch = ps := by
              rw [keyChar, if_neg hsp, hc]
            rw [hcodes] at hfit ⊢
            rw [hstep]
            exact ih h hfit
        | some code =>
            have hcodes := codes_cons_some text hc
            have hstep : keyChar d ps ch = stretch (2 * d) ps ++ keyed d code := by
              rw [keyChar, if_neg hsp, hc]
            have hmul : 2 * UInt32.ofNat d = UInt32.ofNat (2 * d) := (UInt32.ofNat_mul 2 d).symm
            rw [hcodes, markCount] at hfit
            have hkeyed : (keyed d code).length = code.length := List.length_map _
            obtain ⟨arr₁, h₁, hw₁⟩ := stretchGap_spec (2 * d) h
            obtain ⟨arr₂, h₂, hw₂⟩ := @keyCode_spec n d code _ _ hw₁ (by
              rw [stretch_length]
              omega)
            obtain ⟨arr₃, h₃, hw₃, hlen⟩ := ih hw₂ (by
              rw [List.length_append, stretch_length, hkeyed]
              omega)
            rw [List.length_append, stretch_length, hkeyed] at hlen
            rw [stretch_length] at h₂
            dsimp only
            rw [hstep, hmul, h₁, ok_bind, h₂, ok_bind]
            refine ⟨arr₃, h₃, hw₃, ?_⟩
            rw [hcodes, markCount, hlen]
            omega

end Writing

/-- The dot of a speed, in microseconds. -/
def dotOf (wpm : UInt32) : Nat := (calculateDotDurationUs wpm).toNat

theorem dotOf_le (wpm : UInt32) : dotOf wpm ≤ 1200000 := by
  have h : (1200000 : UInt32).toNat = 1200000 := rfl
  unfold dotOf calculateDotDurationUs
  rw [UInt32.toNat_div, h]
  exact Nat.div_le_self _ _

/-- **What `generate_cw_sequence` leaves behind** when it gets its memory: the array it asked for,
full of the symbols of the text. -/
theorem generate_spec {malloc : Malloc} {text : List UInt8} {mem : Vector TxSymbol _}
    (hmem : malloc (estimatedCapacity text) = some mem) (wpm : UInt32) (seq : SequenceRecord) :
    generateCwSequence malloc text wpm seq = .ok { seq with
      symbols := some (symbolsOf (keying (dotOf wpm) text))
      totalSymbols := estimatedCapacity text } ∧
    (symbolsOf (keying (dotOf wpm) text)).length = estimatedCapacity text := by
  have hcap := estimatedCapacity_eq text
  obtain ⟨symArray, hfill, hw, hlen⟩ := @fill_spec _ (dotOf wpm) text mem []
    (written_nil mem) (by rw [List.length_nil, hcap]; omega)
  have hlen : (keying (dotOf wpm) text).length = 0 + markCount (codes text) := hlen
  have hfull : (symbolsOf (keying (dotOf wpm) text)).length = estimatedCapacity text := by
    rw [symbolsOf_length, hlen, hcap]
    omega
  have harr : symArray.toList = symbolsOf (keying (dotOf wpm) text) := by
    refine (List.IsPrefix.eq_of_length hw ?_).symm
    rw [Vector.length_toList]
    exact hfull
  have hidx : 2 * (text.foldl (keyChar (dotOf wpm)) []).length = estimatedCapacity text := by
    rw [← hfull, symbolsOf_length]
    rfl
  refine ⟨?_, hfull⟩
  unfold generateCwSequence
  rw [hmem]
  dsimp only
  rw [show calculateDotDurationUs wpm = UInt32.ofNat (dotOf wpm) from UInt32.ofNat_toNat.symm]
  have hfill : fill (UInt32.ofNat (dotOf wpm)) mem 0 text
      = .ok (symArray, estimatedCapacity text) := hfill.trans (by rw [hidx])
  rw [hfill, ok_bind, harr]
  rfl

/-! ## Reading it back -/

/-- On and off by turns, on first and off last. -/
inductive Alternates : List Bool → Prop where
  | nil : Alternates []
  | pair {l : List Bool} : Alternates l → Alternates (true :: false :: l)

theorem symbolsOf_alternates (ps : List (Nat × Nat)) :
    Alternates ((symbolsOf ps).map TxSymbol.txOn) := by
  induction ps with
  | nil => exact .nil
  | cons p ps ih => exact .pair ih

/-- The on-durations, cut wherever an off-duration is longer than a dot. `piece` is what has been
read since the last cut. -/
def cut (dotUs : UInt32) (piece : List UInt32) : List TxSymbol → List (List UInt32)
  | [] => if piece = [] then [] else [piece]
  | s :: symbols =>
      if s.txOn then cut dotUs (piece ++ [s.durationUs]) symbols
      else if dotUs < s.durationUs then piece :: cut dotUs [] symbols
      else cut dotUs piece symbols

/-- The same on pairs. -/
def cutPairs (d : Nat) (piece : List Nat) : List (Nat × Nat) → List (List Nat)
  | [] => if piece = [] then [] else [piece]
  | (on, off) :: ps =>
      if d < off then (piece ++ [on]) :: cutPairs d [] ps else cutPairs d (piece ++ [on]) ps

/-- Durations that fit a word are cut as numbers are. -/
theorem cut_symbolsOf {d : Nat} (hd : d < 4294967296) {ps : List (Nat × Nat)}
    (hps : ∀ p ∈ ps, p.2 < 4294967296) (piece : List Nat) :
    cut (UInt32.ofNat d) (piece.map UInt32.ofNat) (symbolsOf ps)
      = (cutPairs d piece ps).map (List.map UInt32.ofNat) := by
  induction ps generalizing piece with
  | nil =>
      show cut _ _ [] = _
      unfold cut cutPairs
      by_cases h : piece = []
      · rw [h]
        rfl
      · rw [if_neg h, if_neg (by simpa using h)]
        rfl
  | cons p ps ih =>
      obtain ⟨on, off⟩ := p
      have hoff : off < 4294967296 := hps (on, off) (by simp)
      have hrest := ih (fun q hq => hps q (by simp [hq]))
      have hsnoc : piece.map UInt32.ofNat ++ [UInt32.ofNat on]
          = (piece ++ [on]).map UInt32.ofNat := by rw [List.map_append]; rfl
      have hlt : UInt32.ofNat d < UInt32.ofNat off ↔ d < off := by
        rw [UInt32.lt_iff_toNat_lt, UInt32.toNat_ofNat', UInt32.toNat_ofNat',
          Nat.mod_eq_of_lt hd, Nat.mod_eq_of_lt hoff]
      show (if UInt32.ofNat d < UInt32.ofNat off
        then (piece.map UInt32.ofNat ++ [UInt32.ofNat on])
          :: cut (UInt32.ofNat d) [] (symbolsOf ps)
        else cut (UInt32.ofNat d) (piece.map UInt32.ofNat ++ [UInt32.ofNat on]) (symbolsOf ps)) = _
      rw [cutPairs, hsnoc]
      by_cases h : d < off
      · rw [if_pos h, if_pos (hlt.mpr h), List.map_cons]
        exact congrArg _ (hrest [])
      · rw [if_neg h, if_neg (fun h' => h (hlt.mp h'))]
        exact hrest _

/-- **A stretched gap ends the piece before it**, and at the end of the sequence the gap is not
read at all. -/
theorem cutPairs_stretch {d k : Nat} (hk : d < k) (ps qs : List (Nat × Nat)) (piece : List Nat)
    (h : ps ≠ [] ∨ piece = []) :
    cutPairs d piece (stretch k ps ++ qs) = cutPairs d piece ps ++ cutPairs d [] qs := by
  induction ps using stretch.induct generalizing piece with
  | case1 =>
      rcases h with h | h
      · exact absurd rfl h
      · subst h
        rfl
  | case2 on off =>
      have hne : piece ++ [on] ≠ [] := by simp
      rw [stretch, List.singleton_append, cutPairs, if_pos (by omega), cutPairs]
      by_cases hoff : d < off
      · rw [if_pos hoff]
        rfl
      · rw [if_neg hoff, cutPairs, if_neg hne]
        rfl
  | case3 p q ps ih =>
      obtain ⟨on, off⟩ := p
      rw [stretch, List.cons_append, cutPairs, cutPairs]
      split
      · rw [ih [] (Or.inl (by simp)), List.cons_append]
      · rw [ih _ (Or.inl (by simp))]

/-- Longer or not, the last gap is not read. -/
theorem cutPairs_stretch_end (d k : Nat) (ps : List (Nat × Nat)) (piece : List Nat) :
    cutPairs d piece (stretch k ps) = cutPairs d piece ps := by
  induction ps using stretch.induct generalizing piece with
  | case1 => rfl
  | case2 on off =>
      have hend : ∀ x, cutPairs d piece [(on, x)] = [piece ++ [on]] := by
        intro x
        rw [cutPairs]
        split
        · rfl
        · rw [cutPairs, if_neg (by simp)]
      rw [stretch, hend, hend]
  | case3 p q ps ih =>
      obtain ⟨on, off⟩ := p
      rw [stretch, cutPairs, cutPairs, ih, ih]

/-- A code is one piece. -/
theorem cutPairs_keyed (d : Nat) {code : List UInt8} {piece : List Nat}
    (h : code ≠ [] ∨ piece ≠ []) :
    cutPairs d piece (keyed d code) = [piece ++ code.map (markLength d)] := by
  induction code generalizing piece with
  | nil =>
      rcases h with h | h
      · exact absurd rfl h
      · show cutPairs d piece [] = _
        rw [cutPairs, if_neg h, List.map_nil, List.append_nil]
  | cons mark code ih =>
      show cutPairs d piece ((markLength d mark, d) :: keyed d code) = _
      rw [cutPairs, if_neg (Nat.lt_irrefl d), ih (Or.inr (by simp)), List.map_cons,
        List.append_assoc]
      rfl

/-- **What a whole text is cut to**: what there was, and then the codes of its characters. -/
theorem cutPairs_keying {d : Nat} (hd : 1 ≤ d) (text : List UInt8) (ps : List (Nat × Nat)) :
    cutPairs d [] (text.foldl (keyChar d) ps)
      = cutPairs d [] ps ++ (codes text).map (List.map (markLength d)) := by
  induction text generalizing ps with
  | nil => exact (List.append_nil _).symm
  | cons ch text ih =>
      rw [List.foldl_cons, ih, keyChar]
      by_cases hsp : toupper ch = space
      · rw [if_pos hsp, cutPairs_stretch_end, codes_cons_none text (morseCode_of_space hsp)]
      · rw [if_neg hsp]
        cases hc : morseCode (toupper ch) with
        | none => rw [codes_cons_none text hc]
        | some code =>
            rw [codes_cons_some text hc, List.map_cons]
            dsimp only
            rw [cutPairs_stretch (by omega) ps _ [] (Or.inr rfl),
              cutPairs_keyed d (Or.inl (morseCode_marks hc).1), List.append_assoc]
            rfl

/-- **What the sequence of a text says.** The two passes agree on the number of symbols, the key is
down and up by turns, and between the gaps that are longer than a dot there are the codes of the
characters the table has, a dot and a dash being told apart by how long the key is down. -/
theorem morse_content {text : List UInt8} {wpm : UInt32}
    (hdot : 1 ≤ (calculateDotDurationUs wpm).toNat)
    (hsum : ∀ p ∈ keying (dotOf wpm) text, p.2 < 4294967296)
    {malloc : Malloc} {mem : Vector TxSymbol _}
    (hmem : malloc (estimatedCapacity text) = some mem) (seq : SequenceRecord) :
    ∃ out symbols, generateCwSequence malloc text wpm seq = .ok out ∧
      out.symbols = some symbols ∧ symbols.length = estimatedCapacity text ∧
      out.totalSymbols = estimatedCapacity text ∧
      Alternates (symbols.map TxSymbol.txOn) ∧
      cut (calculateDotDurationUs wpm) [] symbols
        = (codes text).map (List.map (markUs (calculateDotDurationUs wpm))) ∧
      markUs (calculateDotDurationUs wpm) dot ≠ markUs (calculateDotDurationUs wpm) '-'.toUInt8 := by
  obtain ⟨hgen, hlen⟩ := generate_spec hmem wpm seq
  have hle := dotOf_le wpm
  have hword : UInt32.ofNat (dotOf wpm) = calculateDotDurationUs wpm := UInt32.ofNat_toNat
  refine ⟨_, _, hgen, rfl, hlen, rfl, symbolsOf_alternates _, ?_, ?_⟩
  · have hcut := cut_symbolsOf (show dotOf wpm < 4294967296 by omega) hsum []
    have hpieces := cutPairs_keying hdot text []
    have hmark : UInt32.ofNat ∘ markLength (dotOf wpm) = markUs (calculateDotDurationUs wpm) := by
      funext mark
      rw [← hword]
      exact ofNat_markLength (dotOf wpm) mark
    rw [hword] at hcut
    refine hcut.trans ?_
    unfold keying
    rw [show dotOf wpm = (calculateDotDurationUs wpm).toNat from rfl] at hmark ⊢
    rw [hpieces, List.map_append, List.map_map]
    show [] ++ _ = _
    rw [List.nil_append, ← hmark]
    refine List.map_congr_left (fun code _ => ?_)
    exact List.map_map
  · intro heq
    have hlong : markUs (calculateDotDurationUs wpm) '-'.toUInt8
        = 3 * calculateDotDurationUs wpm := rfl
    have hshort : markUs (calculateDotDurationUs wpm) dot = calculateDotDurationUs wpm := rfl
    rw [hlong, hshort] at heq
    have h3 : (3 : UInt32).toNat = 3 := rfl
    have := congrArg UInt32.toNat heq
    rw [UInt32.toNat_mul, h3] at this
    unfold dotOf at hle
    omega

/-- "sos" and a space, at twenty words a minute. -/
theorem morse_content_sos :
    ∃ out symbols, generateCwSequence (fun n => some (Vector.replicate n ⟨0, 0, false⟩))
        (literal "sos ") 20 ⟨0, none, 0, 0, false⟩ = .ok out ∧
      out.symbols = some symbols ∧ symbols.length = 18 ∧
      cut 60000 [] symbols = (codes (literal "sos ")).map (List.map (markUs 60000)) := by
  obtain ⟨out, symbols, hgen, hsym, hlen, -, -, hcut, -⟩ :=
    @morse_content (literal "sos ") 20 (by decide)
      (fun p hp => by
        have hall : (keying (dotOf 20) (literal "sos ")).all (fun p => p.2 < 4294967296) = true := by
          decide
        simpa using List.all_eq_true.mp hall p hp)
      (fun n => some (Vector.replicate n ⟨0, 0, false⟩)) _ rfl ⟨0, none, 0, 0, false⟩
  exact ⟨out, symbols, hgen, hsym, hlen, hcut⟩

end MiniHF.Modes.Cw
