import MiniHF.Modes.CallsignProof
import MiniHF.Modes.CwProof
import MiniHF.Radio.RepeatProof

/-!
# Copying the Morse that the engine keys

A listener who hears the symbols that the engine applies takes down marks, short and
long, and tells by the gaps where a character ends and where a word. Whether a keyed
symbol makes a carrier is another matter; a start disables the output of the clock
generator. The sequence generator makes a gap longer when it comes to the next character
or space, so what stays of a sequence is what has been heard in front of its last gap:
`Pending` says what that is, and each character of the text moves it on.

A sequence that repeats has its last gap in front of its first mark. That gap is one
dot unless a space comes behind the last character, and with one dot the character at
the end of a pass and the one at the start of the next are heard as one.
-/

namespace MiniHF.Modes.Cw

open Ftx Device Interrupts Interrupts.Code Runs

/-! ## The listener -/

def dash : UInt8 := '-'.toUInt8

/-- What has been taken down: the words that have ended, the characters of the word that has not,
and the marks of the character that has not. -/
structure Copy where
  words : List (List (List UInt8))
  word : List (List UInt8)
  code : List UInt8

namespace Copy

def mark (dotUs us : Nat) (c : Copy) : Copy :=
  { c with code := c.code ++ [if us < 2 * dotUs then dot else dash] }

def endCode (c : Copy) : Copy :=
  if c.code = [] then c else { c with word := c.word ++ [c.code], code := [] }

def endWord (c : Copy) : Copy :=
  if c.endCode.word = [] then c.endCode
  else { words := c.words ++ [c.endCode.word], word := [], code := [] }

/-- Two dots of silence end a character, five a word. -/
def gap (dotUs us : Nat) (c : Copy) : Copy :=
  if us < 2 * dotUs then c else if us < 5 * dotUs then c.endCode else c.endWord

def hear (dotUs : Nat) (c : Copy) (s : TxSymbol) : Copy :=
  if s.txOn then c.mark dotUs s.durationUs.toNat else c.gap dotUs s.durationUs.toNat

end Copy

/-- `MORSE_TABLE`, read backwards. -/
def letterOf (code : List UInt8) : Option UInt8 :=
  (morseTable.find? (fun entry => literal entry.2 == code)).map (fun entry => entry.1.toUInt8)

/-- The words a listener reads who knows the dot; `none` is a code that is not in the table. -/
def copied (dotUs : UInt32) (symbols : List TxSymbol) : List (List (Option UInt8)) :=
  (symbols.foldl (Copy.hear dotUs.toNat) ⟨[], [], []⟩).endWord.words.map (List.map letterOf)

/-! ## The words of a text -/

/-- The characters of a word that the table has, upper case. -/
def letters (w : List UInt8) : List UInt8 :=
  (w.map toupper).filter (fun c => (morseCode c).isSome)

/-- What there is between spaces. -/
def wordsOf (text : List UInt8) : List (List UInt8) :=
  ((text.splitOn space).map letters).filter (· ≠ [])

/-- Behind the last character of the table there is a space. -/
def EndsInSpace (text : List UInt8) : Prop :=
  (text.filter fun c => c = space ∨ (morseCode (toupper c)).isSome).getLast? = some space

/-- The words in codes, with the codes of a word in front. -/
def codeWords (word : List (List UInt8)) : List UInt8 → List (List (List UInt8))
  | [] => if word = [] then [] else [word]
  | ch :: text =>
      if toupper ch = space then
        if word = [] then codeWords [] text else word :: codeWords [] text
      else
        match morseCode (toupper ch) with
        | some code => codeWords (word ++ [code]) text
        | none => codeWords word text

theorem toupper_space {ch : UInt8} : toupper ch = space ↔ ch = space := by
  constructor
  · intro h
    by_cases hch : ch = space
    · exact hch
    · exact absurd h (upper_ne_space hch)
  · intro h
    rw [h]
    rfl

/-- **The table can be read backwards.** -/
theorem letterOf_morseCode {c : UInt8} {code : List UInt8} (h : morseCode c = some code) :
    letterOf code = some c := by
  have hall : morseTable.all (fun entry =>
      letterOf (literal entry.2) == some entry.1.toUInt8) = true := by decide
  unfold morseCode at h
  obtain ⟨entry, hfind, rfl⟩ := Option.map_eq_some_iff.mp h
  have hentry := List.all_eq_true.mp hall entry (List.mem_of_find?_eq_some hfind)
  have hchar := List.find?_some hfind
  rw [eq_of_beq hentry, eq_of_beq hchar]

theorem codes_letters (w : List UInt8) : (codes w).map letterOf = (letters w).map some := by
  induction w with
  | nil => rfl
  | cons ch w ih =>
      unfold letters at ih ⊢
      rw [List.map_cons, List.filter_cons]
      cases hcode : morseCode (toupper ch) with
      | none =>
          rw [codes_cons_none w hcode, ih]
          rfl
      | some code =>
          rw [codes_cons_some w hcode, List.map_cons, ih, letterOf_morseCode hcode]
          rfl

/-- A word that goes on, and the words behind it. -/
theorem codeWords_eq (word : List (List UInt8)) (text : List UInt8) :
    codeWords word text
      = (((text.splitOn space).map codes).modifyHead (word ++ ·)).filter (· ≠ []) := by
  induction text generalizing word with
  | nil =>
      rw [codeWords, List.splitOn_nil]
      by_cases h : word = [] <;> simp [h, codes]
  | cons ch text ih =>
      obtain ⟨w, ws, hsplit⟩ := List.exists_cons_of_ne_nil (List.splitOnP_ne_nil (· == space) text)
      have hsplit : text.splitOn space = w :: ws := hsplit
      have hcons : (ch :: text).splitOn space
          = if ch == space then [] :: text.splitOn space
            else (text.splitOn space).modifyHead (ch :: ·) :=
        List.splitOnP_cons_eq_if_modifyHead ..
      rw [codeWords, hcons]
      by_cases hsp : ch = space
      · rw [if_pos (toupper_space.mpr hsp), if_pos (beq_iff_eq.mpr hsp), ih, hsplit]
        by_cases h : word = [] <;> simp [h, codes]
      · rw [if_neg (fun h => hsp (toupper_space.mp h)), if_neg (fun h => hsp (beq_iff_eq.mp h)),
          hsplit]
        cases hcode : morseCode (toupper ch) with
        | none =>
            dsimp only
            rw [ih, hsplit]
            simp [codes_cons_none w hcode]
        | some code =>
            dsimp only
            rw [ih, hsplit]
            simp [codes_cons_some w hcode]

/-- **The words in codes are the words.** -/
theorem codeWords_words (text : List UInt8) :
    (codeWords [] text).map (List.map letterOf) = (wordsOf text).map (List.map some) := by
  have hempty : ∀ w, codes w = [] ↔ letters w = [] := by
    intro w
    rw [← List.map_eq_nil_iff (f := letterOf), codes_letters, List.map_eq_nil_iff]
  rw [codeWords_eq, wordsOf]
  have hhead : ((text.splitOn space).map codes).modifyHead ([] ++ ·)
      = (text.splitOn space).map codes := by
    cases (text.splitOn space).map codes <;> rfl
  rw [hhead]
  induction text.splitOn space with
  | nil => rfl
  | cons w ws ih =>
      rw [List.map_cons, List.map_cons, List.filter_cons, List.filter_cons]
      by_cases hw : codes w = []
      · have hl : letters w = [] := (hempty w).mp hw
        simpa [hw, hl] using ih
      · have hl : letters w ≠ [] := fun h => hw ((hempty w).mpr h)
        simpa [hw, hl, codes_letters] using ih

/-! ## Hearing pairs -/

section Hearing

variable {d : Nat}

def hearPair (d : Nat) (c : Copy) (p : Nat × Nat) : Copy := (c.mark d p.1).gap d p.2

def hearPairs (d : Nat) (c : Copy) (ps : List (Nat × Nat)) : Copy := ps.foldl (hearPair d) c

/-- Durations that fit a word are heard as numbers are. -/
theorem hear_symbolsOf {ps : List (Nat × Nat)}
    (hps : ∀ p ∈ ps, p.1 < 4294967296 ∧ p.2 < 4294967296) (c : Copy) :
    (symbolsOf ps).foldl (Copy.hear d) c = hearPairs d c ps := by
  induction ps generalizing c with
  | nil => rfl
  | cons p ps ih =>
      obtain ⟨⟨hon, hoff⟩, hrest⟩ := List.forall_mem_cons.mp hps
      show (symbolsOf ps).foldl (Copy.hear d)
        ((c.mark d (UInt32.ofNat p.1).toNat).gap d (UInt32.ofNat p.2).toNat) = _
      rw [UInt32.toNat_ofNat_of_lt' hon, UInt32.toNat_ofNat_of_lt' hoff]
      exact ih hrest _

/-- A mark is heard as what it was sent for. -/
theorem mark_markLength (hd : 1 ≤ d) (c : Copy) {m : UInt8} (hm : m = dot ∨ m = dash) :
    c.mark d (markLength d m) = { c with code := c.code ++ [m] } := by
  unfold Copy.mark markLength
  rcases hm with rfl | rfl
  · rw [if_pos rfl, if_pos (by omega)]
  · have hne : dash ≠ dot := by decide
    rw [if_neg hne, if_neg (by omega)]

theorem gap_dot (hd : 1 ≤ d) (c : Copy) : c.gap d d = c := if_pos (by omega)

theorem gap_code (hd : 1 ≤ d) (c : Copy) : c.gap d (3 * d) = c.endCode := by
  rw [Copy.gap, if_neg (by omega), if_pos (by omega)]

theorem gap_word {off : Nat} (hoff : 5 * d ≤ off) (c : Copy) : c.gap d off = c.endWord := by
  by_cases hd : 1 ≤ d
  · rw [Copy.gap, if_neg (by omega), if_neg (by omega)]
  · rw [Copy.gap, if_neg (by omega), if_neg (by omega)]

theorem endCode_eq {c : Copy} (h : c.code ≠ []) :
    c.endCode = ⟨c.words, c.word ++ [c.code], []⟩ := if_neg h

theorem endWord_eq {c : Copy} (h : c.code ≠ []) :
    c.endWord = ⟨c.words ++ [c.word ++ [c.code]], [], []⟩ := by
  rw [Copy.endWord, endCode_eq h, if_neg (by simp)]

/-- A code is heard mark by mark. -/
theorem hear_keyed (hd : 1 ≤ d) {code : List UInt8} (hcode : ∀ m ∈ code, m = dot ∨ m = dash)
    (c : Copy) : hearPairs d c (keyed d code) = { c with code := c.code ++ code } := by
  induction code generalizing c with
  | nil => exact congrArg (Copy.mk c.words c.word) (List.append_nil _).symm
  | cons m code ih =>
      obtain ⟨hm, hrest⟩ := List.forall_mem_cons.mp hcode
      show hearPairs d ((c.mark d (markLength d m)).gap d d) (keyed d code) = _
      rw [gap_dot hd, mark_markLength hd c hm, ih hrest]
      exact congrArg (Copy.mk c.words c.word) (List.append_assoc ..)

/-! ## What a text comes to -/

/-- In front of the last gap the listener has `c`, in the middle of a character; the gap is one dot,
and long if there was a space. -/
def Pending (d : Nat) (start c : Copy) (spaced : Bool) (ps : List (Nat × Nat)) : Prop :=
  ∃ front on off, ps = front ++ [(on, off)] ∧ (hearPairs d start front).mark d on = c ∧
    c.code ≠ [] ∧ if spaced then 7 * d ≤ off else off = d

/-- The character that comes, behind a character or behind a space. -/
def Copy.nextCode (c : Copy) (spaced : Bool) (code : List UInt8) : Copy :=
  { (if spaced then c.endWord else c.endCode) with code }

/-- A space makes the gap longer. -/
theorem Pending.blank {start c : Copy} {spaced : Bool} {ps : List (Nat × Nat)}
    (h : Pending d start c spaced ps) : Pending d start c true (stretch (6 * d) ps) := by
  obtain ⟨front, on, off, rfl, hheard, hcode, hoff⟩ := h
  refine ⟨front, on, off + 6 * d, stretch_snoc .., hheard, hcode, ?_⟩
  rw [if_pos rfl]
  cases spaced with
  | false =>
      have hoff : off = d := hoff
      omega
  | true =>
      have hoff : 7 * d ≤ off := hoff
      omega

/-- A character's own marks are pending. -/
theorem pending_keyed (hd : 1 ≤ d) {code : List UInt8} (hne : code ≠ [])
    (hcode : ∀ m ∈ code, m = dot ∨ m = dash) {start c : Copy} {front : List (Nat × Nat)}
    (hheard : hearPairs d start front = c) :
    Pending d start { c with code := c.code ++ code } false (front ++ keyed d code) := by
  have hsplit := List.dropLast_concat_getLast hne
  refine ⟨front ++ keyed d code.dropLast, markLength d (code.getLast hne), d, ?_, ?_, ?_, rfl⟩
  · rw [List.append_assoc]
    refine congrArg _ ?_
    unfold keyed
    rw [← List.map_singleton (f := fun mark => (markLength d mark, d)), ← List.map_append, hsplit]
  · have hinit : ∀ m ∈ code.dropLast, m = dot ∨ m = dash :=
      fun m hm => hcode m ((List.dropLast_sublist code).subset hm)
    have hall : hearPairs d start (front ++ keyed d code.dropLast)
        = { c with code := c.code ++ code.dropLast } := by
      unfold hearPairs
      rw [List.foldl_append]
      exact (congrArg (hearPairs d · _) hheard).trans (hear_keyed hd hinit c)
    rw [hall, mark_markLength hd _ (hcode _ (List.getLast_mem hne))]
    exact congrArg (Copy.mk c.words c.word) (by rw [List.append_assoc, hsplit])
  · simp [hne]

/-- A character ends the one in front of it, and the word if there was a space. -/
theorem Pending.char (hd : 1 ≤ d) {code : List UInt8} (hne : code ≠ [])
    (hcode : ∀ m ∈ code, m = dot ∨ m = dash) {start c : Copy} {spaced : Bool}
    {ps : List (Nat × Nat)} (h : Pending d start c spaced ps) :
    Pending d start (c.nextCode spaced code) false (stretch (2 * d) ps ++ keyed d code) := by
  obtain ⟨front, on, off, rfl, hheard, hopen, hoff⟩ := h
  rw [stretch_snoc]
  have hgap : hearPairs d start (front ++ [(on, off + 2 * d)])
      = if spaced then c.endWord else c.endCode := by
    unfold hearPairs
    rw [List.foldl_append]
    show ((hearPairs d start front).mark d on).gap d (off + 2 * d) = _
    rw [hheard]
    cases spaced with
    | false =>
        have hoff : off = d := hoff
        rw [hoff, show d + 2 * d = 3 * d by omega]
        exact gap_code hd c
    | true =>
        have hoff : 7 * d ≤ off := hoff
        exact gap_word (by omega) c
  have hclosed : (if spaced then c.endWord else c.endCode).code = [] := by
    rw [endWord_eq hopen, endCode_eq hopen]
    cases spaced <;> rfl
  have hnext := pending_keyed hd hne hcode hgap
  rwa [hclosed] at hnext

/-- Whether a space comes behind the last character. -/
def spacedAfter (spaced : Bool) (text : List UInt8) : Bool :=
  text.foldl
    (fun spaced ch =>
      if toupper ch = space then true
      else if (morseCode (toupper ch)).isSome then false else spaced)
    spaced

/-- **What is pending behind a text**, when something is in front of it. -/
theorem Pending.text (hd : 1 ≤ d) {start c : Copy} {spaced : Bool} {ps : List (Nat × Nat)}
    (h : Pending d start c spaced ps) (text : List UInt8) :
    ∃ c', Pending d start c' (spacedAfter spaced text) (text.foldl (keyChar d) ps) ∧
      c'.endWord.words
        = if spaced then c.endWord.words ++ codeWords [] text
          else c.words ++ codeWords (c.word ++ [c.code]) text := by
  induction text generalizing c spaced ps with
  | nil =>
      refine ⟨c, h, ?_⟩
      obtain ⟨-, -, -, -, -, hopen, -⟩ := h
      have hword : c.word ++ [c.code] ≠ [] := by simp
      rw [endWord_eq hopen, codeWords, codeWords, if_neg hword]
      cases spaced with
      | false => rfl
      | true => exact (List.append_nil _).symm
  | cons ch text ih =>
      obtain ⟨-, -, -, -, -, hopen, -⟩ := id h
      have hword : c.word ++ [c.code] ≠ [] := by simp
      rw [List.foldl_cons, keyChar, spacedAfter, List.foldl_cons, codeWords, codeWords]
      by_cases hsp : toupper ch = space
      · obtain ⟨c', hc', hwords⟩ := ih h.blank
        rw [if_pos hsp, if_pos hsp, if_pos hsp, if_pos hsp, if_pos rfl, if_neg hword]
        refine ⟨c', hc', hwords.trans ?_⟩
        rw [if_pos rfl, endWord_eq hopen, List.append_assoc, List.singleton_append]
        split <;> rfl
      · rw [if_neg hsp, if_neg hsp, if_neg hsp, if_neg hsp]
        cases hcode : morseCode (toupper ch) with
        | none => exact ih h
        | some code =>
            obtain ⟨hne, hmarks⟩ := morseCode_marks hcode
            obtain ⟨c', hc', hwords⟩ := ih (h.char hd hne hmarks)
            refine ⟨c', hc', hwords.trans ?_⟩
            rw [if_neg Bool.false_ne_true, Copy.nextCode, endWord_eq hopen, endCode_eq hopen]
            cases spaced <;> rfl

/-- **What is pending behind a text that comes first.** -/
theorem pending_keying (hd : 1 ≤ d) (words : List (List (List UInt8))) {text : List UInt8}
    (hcodes : codes text ≠ []) :
    ∃ c, Pending d ⟨words, [], []⟩ c (spacedAfter false text) (keying d text) ∧
      c.endWord.words = words ++ codeWords [] text := by
  -- what stands in front of the first character is not sent
  have hfront : ∀ spaced, ∃ c, Pending d ⟨words, [], []⟩ c (spacedAfter spaced text)
      (keying d text) ∧ c.endWord.words = words ++ codeWords [] text := by
    induction text with
    | nil => exact absurd rfl hcodes
    | cons ch text ih =>
        intro spaced
        rw [keying, List.foldl_cons, keyChar, spacedAfter, List.foldl_cons, codeWords]
        by_cases hsp : toupper ch = space
        · rw [if_pos hsp, if_pos hsp, if_pos hsp, if_pos rfl]
          rw [codes_cons_none text (morseCode_of_space hsp)] at hcodes
          exact ih hcodes true
        · rw [if_neg hsp, if_neg hsp, if_neg hsp]
          cases hcode : morseCode (toupper ch) with
          | none =>
              rw [codes_cons_none text hcode] at hcodes
              exact ih hcodes spaced
          | some code =>
              obtain ⟨hne, hmarks⟩ := morseCode_marks hcode
              have hfirst := pending_keyed hd hne hmarks
                (show hearPairs d ⟨words, [], []⟩ [] = ⟨words, [], []⟩ from rfl)
              obtain ⟨c, hc, hwords⟩ := hfirst.text hd text
              exact ⟨c, hc, hwords⟩
  exact hfront false

/-- The last of the characters that count says whether a space comes last. -/
theorem spacedAfter_iff {text : List UInt8} :
    spacedAfter false text = true ↔ EndsInSpace text := by
  have hlast : ∀ spaced, spacedAfter spaced text
      = (((text.filter fun c => c = space ∨ (morseCode (toupper c)).isSome).getLast?).map
          (· == space)).getD spaced := by
    induction text with
    | nil => intro spaced; rfl
    | cons ch text ih =>
        intro spaced
        rw [spacedAfter, List.foldl_cons, ← spacedAfter, ih, List.filter_cons]
        by_cases hsp : ch = space
        · rw [if_pos (toupper_space.mpr hsp), if_pos (by simp [hsp]), List.getLast?_cons]
          cases (text.filter _).getLast? with
          | none => simp [hsp]
          | some c => rfl
        · rw [if_neg (fun h => hsp (toupper_space.mp h))]
          by_cases hcode : (morseCode (toupper ch)).isSome = true
          · rw [if_pos hcode, if_pos (by simp [hcode]), List.getLast?_cons]
            cases (text.filter _).getLast? with
            | none => simp [hsp]
            | some c => rfl
          · rw [if_neg hcode, if_neg (by simp [hsp, hcode])]
  rw [hlast, EndsInSpace]
  cases (text.filter _).getLast? with
  | none => simp
  | some c => simp

/-! ## Passes -/

/-- A pass with a space at its end is its words. -/
theorem hear_pass (hd : 1 ≤ d) (words : List (List (List UInt8))) {text : List UInt8}
    (hcodes : codes text ≠ []) (hspace : EndsInSpace text) :
    hearPairs d ⟨words, [], []⟩ (keying d text) = ⟨words ++ codeWords [] text, [], []⟩ := by
  obtain ⟨c, ⟨front, on, off, hps, hheard, hopen, hoff⟩, hwords⟩ := pending_keying hd words hcodes
  rw [spacedAfter_iff.mpr hspace] at hoff
  have hoff : 7 * d ≤ off := hoff
  rw [hps, hearPairs, List.foldl_append]
  show ((hearPairs d ⟨words, [], []⟩ front).mark d on).gap d off = _
  rw [hheard, gap_word (by omega), ← hwords, endWord_eq hopen]

/-- **Passes with a space at the end are the words over and over.** -/
theorem hear_passes (hd : 1 ≤ d) (words : List (List (List UInt8))) {text : List UInt8}
    (hcodes : codes text ≠ []) (hspace : EndsInSpace text) (k : Nat) :
    hearPairs d ⟨words, [], []⟩ (List.replicate k (keying d text)).flatten
      = ⟨words ++ (List.replicate k (codeWords [] text)).flatten, [], []⟩ := by
  induction k generalizing words with
  | zero => exact congrArg (Copy.mk · [] []) (List.append_nil _).symm
  | succ k ih =>
      rw [List.replicate_succ, List.flatten_cons, hearPairs, List.foldl_append]
      show hearPairs d (hearPairs d ⟨words, [], []⟩ (keying d text)) _ = _
      rw [hear_pass hd words hcodes hspace, ih, List.replicate_succ, List.flatten_cons,
        List.append_assoc]

/-- Without one the last character of a pass has not ended. -/
theorem hear_open (hd : 1 ≤ d) {text : List UInt8} (hcodes : codes text ≠ [])
    (hspace : ¬ EndsInSpace text) :
    (hearPairs d ⟨[], [], []⟩ (keying d text)).code ≠ [] ∧
      (hearPairs d ⟨[], [], []⟩ (keying d text)).endWord.words = codeWords [] text := by
  obtain ⟨c, ⟨front, on, off, hps, hheard, hopen, hoff⟩, hwords⟩ := pending_keying hd [] hcodes
  rw [Bool.eq_false_iff.mpr (fun h => hspace (spacedAfter_iff.mp h))] at hoff
  have hoff : off = d := hoff
  have hlast : hearPairs d ⟨[], [], []⟩ (keying d text) = c := by
    rw [hps, hearPairs, List.foldl_append]
    show ((hearPairs d ⟨[], [], []⟩ front).mark d on).gap d off = c
    rw [hheard, hoff, gap_dot hd]
  rw [hlast]
  exact ⟨hopen, hwords⟩

/-- The characters that have ended. -/
def Copy.ended (c : Copy) : Nat := c.words.flatten.length + c.word.length

theorem ended_endCode {c : Copy} (h : c.code ≠ []) : c.endCode.ended = c.ended + 1 := by
  rw [endCode_eq h, Copy.ended, Copy.ended, List.length_append, List.length_singleton,
    Nat.add_assoc]

theorem ended_endWord {c : Copy} (h : c.code ≠ []) : c.endWord.ended = c.ended + 1 := by
  rw [endWord_eq h, Copy.ended, Copy.ended, List.flatten_append, List.flatten_singleton,
    List.length_append, List.length_append, List.length_singleton, List.length_nil, Nat.add_zero,
    Nat.add_assoc]

/-- What is left when the silence lasts is every character, ended or not. -/
theorem endWord_count (c : Copy) :
    c.endWord.words.flatten.length = c.ended + if c.code = [] then 0 else 1 := by
  by_cases h : c.code = []
  · have hcode : c.endCode = c := if_pos h
    rw [if_pos h, Nat.add_zero, Copy.endWord, hcode, Copy.ended]
    by_cases hword : c.word = []
    · rw [if_pos hword, hword, List.length_nil, Nat.add_zero]
    · rw [if_neg hword, List.flatten_append, List.flatten_singleton, List.length_append]
  · rw [if_neg h, ← ended_endWord h, endWord_eq h, Copy.ended, List.length_nil, Nat.add_zero]

/-- **Characters end at long gaps**, one at each. -/
theorem ended_hearPairs (d : Nat) (c : Copy) (ps : List (Nat × Nat)) :
    (hearPairs d c ps).ended = c.ended + ps.countP (fun p => 2 * d ≤ p.2) := by
  induction ps generalizing c with
  | nil => rfl
  | cons p ps ih =>
      have hopen : (c.mark d p.1).code ≠ [] := by simp [Copy.mark]
      have hstep : (hearPair d c p).ended = c.ended + if 2 * d ≤ p.2 then 1 else 0 := by
        have hmark : (c.mark d p.1).ended = c.ended := rfl
        rw [hearPair, Copy.gap]
        by_cases hshort : p.2 < 2 * d
        · rw [if_pos hshort, if_neg (by omega), hmark, Nat.add_zero]
        · have hlong : 2 * d ≤ p.2 := by omega
          rw [if_neg hshort, if_pos hlong, ← hmark]
          split
          · exact ended_endCode hopen
          · exact ended_endWord hopen
      show (hearPairs d (hearPair d c p) ps).ended = _
      rw [ih, hstep, List.countP_cons, Nat.add_assoc]
      simp only [decide_eq_true_eq]
      exact congrArg _ (Nat.add_comm ..)

theorem countP_passes (f : Nat × Nat → Bool) (ps : List (Nat × Nat)) (k : Nat) :
    (List.replicate k ps).flatten.countP f = k * ps.countP f := by
  rw [List.countP_flatten, List.map_replicate, List.sum_replicate_nat]

/-- **Without a space at the end passes run into each other.** -/
theorem hear_merged (hd : 1 ≤ d) {text : List UInt8} (hcodes : codes text ≠ [])
    (hspace : ¬ EndsInSpace text) {k : Nat} (hk : 1 < k) :
    (hearPairs d ⟨[], [], []⟩ (List.replicate k (keying d text)).flatten).endWord.words.flatten.length
      < k * (codeWords [] text).flatten.length := by
  obtain ⟨hopen, hwords⟩ := hear_open hd hcodes hspace
  have hone := endWord_count (hearPairs d ⟨[], [], []⟩ (keying d text))
  have hall := endWord_count
    (hearPairs d ⟨[], [], []⟩ (List.replicate k (keying d text)).flatten)
  have hnone : Copy.ended ⟨[], [], []⟩ = 0 := rfl
  rw [if_neg hopen, hwords, ended_hearPairs, hnone, Nat.zero_add] at hone
  rw [ended_hearPairs, countP_passes, hnone, Nat.zero_add] at hall
  -- a pass has one character more than it has long gaps
  rw [hone, hall, Nat.mul_add, Nat.mul_one]
  split <;> omega

end Hearing

/-! ## As the engine keys it -/

/-- What the engine is given: the sequence as the generator has left it. -/
structure Loaded (seq : SequenceRecord) (orig : TxSequence) : Prop where
  symbols : seq.symbols = some orig.symbols
  count : seq.totalSymbols = orig.totalSymbols

/-- A generated sequence that is not empty is that of a text with characters. -/
theorem generated_symbols {malloc : Malloc} {text : List UInt8} {wpm : UInt32}
    {seq seq' : SequenceRecord} (hgen : generateCwSequence malloc text wpm seq = .ok seq')
    {orig : TxSequence} (hseq : Loaded seq' orig) (hzero : orig.totalSymbols ≠ 0) :
    orig.symbols = symbolsOf (keying (dotOf wpm) text) ∧
      orig.totalSymbols = orig.symbols.length ∧ codes text ≠ [] := by
  cases hmem : malloc (estimatedCapacity text) with
  | none =>
      unfold generateCwSequence at hgen
      dsimp only at hgen
      rw [hmem] at hgen
      cases hgen
      exact absurd hseq.count.symm hzero
  | some mem =>
      obtain ⟨hspec, hlen⟩ := generate_spec hmem wpm seq
      obtain rfl := Except.ok.inj (hspec.symm.trans hgen)
      have hsymbols : symbolsOf (keying (dotOf wpm) text) = orig.symbols :=
        Option.some.inj hseq.symbols
      have hcount : estimatedCapacity text = orig.totalSymbols := hseq.count
      refine ⟨hsymbols.symm, by rw [← hcount, ← hsymbols, hlen], ?_⟩
      intro hnil
      rw [← hcount, estimatedCapacity_eq, hnil] at hzero
      exact hzero rfl

theorem replicate_symbolsOf (ps : List (Nat × Nat)) (k : Nat) :
    (List.replicate k (symbolsOf ps)).flatten = symbolsOf (List.replicate k ps).flatten := by
  induction k with
  | zero => rfl
  | succ k ih =>
      rw [List.replicate_succ, List.replicate_succ, List.flatten_cons, List.flatten_cons, ih,
        symbolsOf_append]

theorem stretch_fst (k : Nat) (ps : List (Nat × Nat)) :
    (stretch k ps).map Prod.fst = ps.map Prod.fst := by
  induction ps using stretch.induct with
  | case1 => rfl
  | case2 on off => rfl
  | case3 p q ps ih => rw [stretch, List.map_cons, ih]; rfl

/-- The key is down for three dots at most. -/
theorem keying_fst (d : Nat) (text : List UInt8) :
    ∀ on ∈ (keying d text).map Prod.fst, on ≤ 3 * d := by
  have hfold : ∀ ps : List (Nat × Nat), (∀ on ∈ ps.map Prod.fst, on ≤ 3 * d) →
      ∀ on ∈ (text.foldl (keyChar d) ps).map Prod.fst, on ≤ 3 * d := by
    induction text with
    | nil => intro ps h; exact h
    | cons ch text ih =>
        intro ps h
        apply ih
        rw [keyChar]
        split
        · rwa [stretch_fst]
        · split
          · rw [List.map_append, stretch_fst]
            intro on hon
            rcases List.mem_append.mp hon with hon | hon
            · exact h on hon
            · obtain ⟨p, hp, rfl⟩ := List.mem_map.mp hon
              obtain ⟨mark, -, rfl⟩ := List.mem_map.mp hp
              show markLength d mark ≤ 3 * d
              unfold markLength
              split <;> omega
          · exact h
  exact hfold [] (fun _ h => absurd h List.not_mem_nil)

/-- **What a listener copies from passes.** -/
theorem copied_iff {wpm : UInt32} (hdot : 1 ≤ (calculateDotDurationUs wpm).toNat)
    {text : List UInt8} (hsum : ∀ p ∈ keying (dotOf wpm) text, p.2 < 4294967296)
    (hcodes : codes text ≠ []) {k : Nat} (hk : 1 ≤ k) :
    copied (calculateDotDurationUs wpm)
        (symbolsOf (List.replicate k (keying (dotOf wpm) text)).flatten)
        = (List.replicate k (wordsOf text)).flatten.map (List.map some)
      ↔ k = 1 ∨ EndsInSpace text := by
  have hle := dotOf_le wpm
  have hd : 1 ≤ dotOf wpm := hdot
  have hfit : ∀ p ∈ (List.replicate k (keying (dotOf wpm) text)).flatten,
      p.1 < 4294967296 ∧ p.2 < 4294967296 := by
    intro p hp
    obtain ⟨ps, hps, hp⟩ := List.mem_flatten.mp hp
    rw [(List.mem_replicate.mp hps).2] at hp
    have hon := keying_fst (dotOf wpm) text p.1 (List.mem_map_of_mem hp)
    exact ⟨by omega, hsum p hp⟩
  have hwords : (List.replicate k (wordsOf text)).flatten.map (List.map some)
      = (List.replicate k (codeWords [] text)).flatten.map (List.map letterOf) := by
    rw [List.map_flatten, List.map_flatten, List.map_replicate, List.map_replicate,
      codeWords_words]
  rw [copied, ← dotOf, hear_symbolsOf hfit, hwords]
  by_cases hspace : EndsInSpace text
  · refine iff_of_true ?_ (.inr hspace)
    rw [hear_passes hd [] hcodes hspace k]
    rfl
  · rcases Nat.lt_or_ge 1 k with hmore | hone
    · -- two passes have fewer characters than they should
      have hneither : ¬ (k = 1 ∨ EndsInSpace text) := not_or.mpr ⟨by omega, hspace⟩
      refine iff_of_false (fun heq => ?_) hneither
      have hlen : ∀ ws : List (List (List UInt8)),
          (ws.map (List.map letterOf)).flatten.length = ws.flatten.length := by
        intro ws
        rw [← List.map_flatten, List.length_map]
      have hpasses : (List.replicate k (codeWords [] text)).flatten.flatten.length
          = k * (codeWords [] text).flatten.length := by
        rw [List.flatten_flatten, List.map_replicate, List.length_flatten, List.map_replicate,
          List.sum_replicate_nat]
      have hcount := congrArg (fun ws => List.length (List.flatten ws)) heq
      rw [hlen, hlen, hpasses] at hcount
      exact absurd hcount (Nat.ne_of_lt (hear_merged hd hcodes hspace hmore))
    · obtain rfl : k = 1 := Nat.le_antisymm hone hk
      refine iff_of_true ?_ (.inl rfl)
      rw [List.replicate_one, List.replicate_one, List.flatten_singleton, List.flatten_singleton,
        (hear_open hd hcodes hspace).2]

/--
**Morse as it is keyed.**

In every run of the engine in which it has played the sequence of a text `k` times, a
listener to the symbols it has applied who knows the dot has copied the words of the text
`k` times, characters the table does not have left out, if and only if there is one pass
only or a space comes behind the last character.
-/
theorem morse_on_air {text : List UInt8} {wpm : UInt32}
    (hdot : 1 ≤ (calculateDotDurationUs wpm).toNat)
    (hsum : ∀ p ∈ keying (dotOf wpm) text, p.2 < 4294967296) {malloc : Malloc}
    {seq seq' : SequenceRecord} (hgen : generateCwSequence malloc text wpm seq = .ok seq')
    {orig : TxSequence} (hseq : Loaded seq' orig) {d : Device} (hinit : d.schedule = initSchedule)
    (es : List (Event EngineOp))
    (hdone : (run (interleavedStep engine) ⟨d, .done⟩ es).todo = .done)
    (horig : (run (interleavedStep engine) ⟨d, .done⟩ es).state.started = some orig) {k : Nat}
    (hk : 1 ≤ k)
    (hpasses : k * orig.totalSymbols
      ≤ (run (interleavedStep engine) ⟨d, .done⟩ es).state.applied.length) :
    copied (calculateDotDurationUs wpm)
        ((run (interleavedStep engine) ⟨d, .done⟩ es).state.applied.take (k * orig.totalSymbols))
        = (List.replicate k (wordsOf text)).flatten.map (List.map some)
      ↔ k = 1 ∨ EndsInSpace text := by
  obtain ⟨hzero, happlied⟩ := applied_eq hinit es hdone horig
  obtain ⟨hsymbols, hcount, hcodes⟩ := generated_symbols hgen hseq hzero
  have hpass : (run (interleavedStep engine) ⟨d, .done⟩ es).state.applied.take
      (k * orig.totalSymbols) = symbolsOf (List.replicate k (keying (dotOf wpm) text)).flatten := by
    obtain ⟨rest, hrest⟩ := Nat.exists_eq_add_of_le hpasses
    rw [happlied, hrest, played_add, List.take_left' (played_length _ _), played_passes hcount,
      hsymbols, replicate_symbolsOf]
  rw [hpass]
  exact copied_iff hdot hsum hcodes hk

/-- The sequence of a text at twenty words a minute, set to repeat. -/
def beacon (text : List UInt8) : TxSequence :=
  let symbols := symbolsOf (keying (dotOf 20) text)
  { baseFreqHz := 0, symbols, totalSymbols := symbols.length, currentIndex := 0, repeats := true
    valid := Nat.le_refl _ }

/-- "cq de" with a space behind it, twice. -/
theorem morse_on_air_cq :
    ∃ es : List (Event EngineOp),
      let m := run (interleavedStep engine) ⟨boot (fun _ => 0) ⟨0, 0, 0, 0, 0, 0⟩ 0 [], .done⟩ es
      m.state.applied.length = 48 ∧
        copied 60000 (m.state.applied.take 48)
          = [literal "CQ", literal "DE", literal "CQ", literal "DE"].map (List.map some) := by
  obtain ⟨hgen, hlen⟩ := @generate_spec (fun n => some (Vector.replicate n ⟨0, 0, false⟩))
    (literal "cq de ") _ rfl 20 ⟨0, none, 0, 0, true⟩
  have hseq : ∀ seq, seq.symbols = some (beacon (literal "cq de ")).symbols →
      seq.totalSymbols = estimatedCapacity (literal "cq de ") →
      Loaded seq (beacon (literal "cq de ")) :=
    fun _ hsymbols hcount => ⟨hsymbols, hcount.trans hlen.symm⟩
  have htotal : (beacon (literal "cq de ")).totalSymbols = 24 := by decide
  obtain ⟨es, hdone, horig, happlied⟩ := plays_on (boot (fun _ => 0) ⟨0, 0, 0, 0, 0, 0⟩ 0 [])
    (show (beacon (literal "cq de ")).totalSymbols ≠ 0 by decide) rfl 47
  refine ⟨es, happlied, ?_⟩
  have hgaps : (keying (dotOf 20) (literal "cq de ")).all (fun p => p.2 < 4294967296) = true := by
    decide
  have hsum : ∀ p ∈ keying (dotOf 20) (literal "cq de "), p.2 < 4294967296 :=
    fun p hp => by simpa using List.all_eq_true.mp hgaps p hp
  have hpasses : 2 * (beacon (literal "cq de ")).totalSymbols
      ≤ (run (interleavedStep engine) ⟨boot (fun _ => 0) ⟨0, 0, 0, 0, 0, 0⟩ 0 [], .done⟩
          es).state.applied.length :=
    Nat.le_of_eq ((congrArg (2 * ·) htotal).trans happlied.symm)
  have hcopied := (morse_on_air (by decide) hsum hgen (hseq _ rfl rfl) rfl es hdone horig (by decide)
    hpasses).mpr (.inr (by unfold EndsInSpace; decide))
  rw [htotal] at hcopied
  exact hcopied.trans (by decide)

end MiniHF.Modes.Cw
