import MiniHF.Modes.Rtty
import MiniHF.Modes.EncoderProof
import MiniHF.Lib.Blocks

/-!
# What a teletype receives

Both passes walk through the same list of codes: `codesOf` is that list, with a shift
code in front of every character that is not in the table in force. The first pass
computes its length, the second writes seven symbols for each of it.

A receiver goes the other way. It reads groups of seven symbols to codes and then
follows the shift codes itself. It and the generator start from letters, and a code
leaves them in the same table, so each code means to the receiver what it was
written for.
-/

namespace MiniHF.Modes.Rtty

open Buffer

/-! ## The tables -/

/-- The character a code stands for. -/
def tableChar (figs : Bool) (code : UInt8) : UInt8 :=
  (if figs then ita2Figs else ita2Ltrs).getD code.toNat 0

/-- A character that is in one of the tables. -/
def inTables (c : UInt8) : Bool := ita2Ltrs.contains c || ita2Figs.contains c

/-- What `ascii_to_ita2` promises about a code and the table it asks for. -/
structure Encodes (c code : UInt8) (reqShift : ShiftState) : Prop where
  fits : code.toNat < 32
  /-- It is none of the codes that change over. -/
  noShift : code ≠ baudotLtrsShift ∧ code ≠ baudotFigsShift
  /-- In the table asked for it is the character, and in both when none is asked for. -/
  ltrs : reqShift ≠ .figs → tableChar false code = c
  figs : reqShift ≠ .ltrs → tableChar true code = c

/-- A place of a table is a code of the character there, unless that is the NUL: the codes that
change over have NULs in both tables. -/
theorem encodes_idxOf {figs : Bool} {c : UInt8} (hc : c ≠ 0) {i : Nat}
    (h : (if figs then ita2Figs else ita2Ltrs).idxOf? c = some i) :
    Encodes c (UInt8.ofNat i) (if figs then .figs else .ltrs) ∧ inTables c = true := by
  obtain ⟨hlt, hget, -⟩ := List.idxOf?_eq_some_iff.mp h
  have hsize : (if figs then ita2Figs else ita2Ltrs).length = 32 := by cases figs <;> rfl
  rw [hsize] at hlt
  have hcode : (UInt8.ofNat i).toNat = i := by
    rw [UInt8.toNat_ofNat']
    omega
  have hchar : tableChar figs (UInt8.ofNat i) = c := by
    unfold tableChar
    rw [hcode, List.getD_eq_getElem?_getD, List.getElem?_eq_getElem (by rw [hsize]; exact hlt),
      Option.getD_some]
    exact hget
  have hno : UInt8.ofNat i ≠ baudotLtrsShift ∧ UInt8.ofNat i ≠ baudotFigsShift := by
    constructor
    · intro heq
      rw [heq] at hchar
      cases figs <;> exact hc hchar.symm
    · intro heq
      rw [heq] at hchar
      cases figs <;> exact hc hchar.symm
  have hmem : c ∈ (if figs then ita2Figs else ita2Ltrs) := by
    rw [← List.isSome_idxOf?, h]
    rfl
  cases figs with
  | false =>
      refine ⟨⟨by omega, hno, fun _ => hchar, fun hne => absurd rfl hne⟩, ?_⟩
      have hin : ita2Ltrs.contains c = true := List.contains_iff_mem.mpr hmem
      rw [inTables, hin, Bool.true_or]
  | true =>
      refine ⟨⟨by omega, hno, fun hne => absurd rfl hne, fun _ => hchar⟩, ?_⟩
      have hin : ita2Figs.contains c = true := List.contains_iff_mem.mpr hmem
      rw [inTables, hin, Bool.or_true]

theorem encodes_space : Encodes ' '.toUInt8 baudotSpace .any :=
  ⟨by decide, ⟨by decide, by decide⟩, fun _ => rfl, fun _ => rfl⟩

theorem encodes_cr : Encodes '\r'.toUInt8 baudotCr .any :=
  ⟨by decide, ⟨by decide, by decide⟩, fun _ => rfl, fun _ => rfl⟩

theorem encodes_lf : Encodes '\n'.toUInt8 baudotLf .any :=
  ⟨by decide, ⟨by decide, by decide⟩, fun _ => rfl, fun _ => rfl⟩

theorem contains_of_idxOf {l : List UInt8} {c : UInt8} (h : l.idxOf? c = none) :
    l.contains c = false := by
  rw [← Bool.not_eq_true, List.contains_iff_mem]
  exact List.idxOf?_eq_none_iff.mp h

/-- **The code of a character.** There is one when a table has it. -/
theorem asciiToIta2_spec {ch : UInt8} (h : ch ≠ 0) :
    (∀ code reqShift, asciiToIta2 ch = some (code, reqShift) →
        Encodes (toupper ch) code reqShift ∧ inTables (toupper ch) = true) ∧
      (asciiToIta2 ch = none → inTables (toupper ch) = false) := by
  have hc : toupper ch ≠ 0 := Ftx.upper_ne_zero h
  unfold asciiToIta2
  dsimp only
  generalize toupper ch = c at hc
  have hsome : ∀ {code reqShift}, Encodes c code reqShift → inTables c = true →
      (∀ code' reqShift', some (code, reqShift) = some (code', reqShift') →
        Encodes c code' reqShift' ∧ inTables c = true) ∧
      (some (code, reqShift) = none → inTables c = false) := by
    intro code reqShift henc hin
    refine ⟨fun code' reqShift' heq => ?_, fun heq => by cases heq⟩
    cases heq
    exact ⟨henc, hin⟩
  split
  · next hsp =>
      subst hsp
      exact hsome encodes_space (by decide)
  split
  · next hcr =>
      subst hcr
      exact hsome encodes_cr (by decide)
  split
  · next hlf =>
      subst hlf
      exact hsome encodes_lf (by decide)
  cases hl : ita2Ltrs.idxOf? c with
  | some i =>
      obtain ⟨henc, hin⟩ := @encodes_idxOf false c hc i hl
      exact hsome henc hin
  | none =>
      cases hf : ita2Figs.idxOf? c with
      | some i =>
          obtain ⟨henc, hin⟩ := @encodes_idxOf true c hc i hf
          exact hsome henc hin
      | none =>
          refine ⟨fun code reqShift heq => (by cases heq), fun _ => ?_⟩
          unfold inTables
          rw [contains_of_idxOf hl, contains_of_idxOf hf]
          rfl

/-! ## The codes of a text -/

/-- The codes both passes walk through. -/
def codesOf (currentState : ShiftState) : List UInt8 → List UInt8
  | [] => []
  | ch :: text =>
      match asciiToIta2 ch with
      | some (code, reqShift) =>
          if reqShift ≠ .any ∧ reqShift ≠ currentState then
            shiftCode reqShift :: code :: codesOf reqShift text
          else code :: codesOf currentState text
      | none => codesOf currentState text

/-- **The first pass counts them.** -/
theorem countCodes_eq (text : List UInt8) : (countCodes text).1 = (codesOf .ltrs text).length := by
  have hstep : ∀ (count : Nat) (currentState : ShiftState),
      (text.foldl countCode (count, currentState)).1
        = count + (codesOf currentState text).length := by
    induction text with
    | nil => intro count currentState; rfl
    | cons ch text ih =>
        intro count currentState
        rw [List.foldl_cons, codesOf, countCode]
        cases asciiToIta2 ch with
        | none => exact ih count currentState
        | some p =>
            obtain ⟨code, reqShift⟩ := p
            dsimp only
            by_cases hshift : reqShift ≠ .any ∧ reqShift ≠ currentState
            · rw [if_pos hshift, if_pos hshift, ih, List.length_cons, List.length_cons]
              omega
            · rw [if_neg hshift, if_neg hshift, ih, List.length_cons]
              omega
  have hall := hstep 0 .ltrs
  rwa [Nat.zero_add] at hall

/-! ## The symbols of the codes -/

theorem baudotSymbols_length (line : Line) (code : UInt8) :
    (baudotSymbols line code).length = 7 := rfl

/-- The symbols of codes. -/
def symbolsOf (line : Line) (codes : List UInt8) : List TxSymbol :=
  codes.flatMap (baudotSymbols line)

theorem symbolsOf_length (line : Line) (codes : List UInt8) :
    (symbolsOf line codes).length = codes.length * 7 :=
  Blocks.flatMap_length (baudotSymbols_length line) codes

theorem append_symbolsOf_cons (line : Line) (l : List TxSymbol) (code : UInt8)
    (codes : List UInt8) :
    l ++ symbolsOf line (code :: codes) = l ++ baudotSymbols line code ++ symbolsOf line codes := by
  rw [symbolsOf, List.flatMap_cons, List.append_assoc]
  rfl

section Writing

variable {n : Nat} {line : Line}

theorem pushBaudot_spec {symbols : Vector TxSymbol n} {l : List TxSymbol} (code : UInt8)
    (h : Written symbols l) (hfit : l.length + 7 ≤ n) :
    ∃ symbols', pushBaudot line code symbols l.length
        = .ok (symbols', (l ++ baudotSymbols line code).length) ∧
      Written symbols' (l ++ baudotSymbols line code) := by
  obtain ⟨symbols', hcopy, hw⟩ := memcpy_snoc (baudotSymbols line code) h hfit
  refine ⟨symbols', ?_, hw⟩
  unfold pushBaudot
  rw [hcopy, ok_bind, List.length_append, baudotSymbols_length]
  rfl

/-- **The second pass.** With room for the codes that are left it writes them and nothing else. -/
theorem fill_spec {text : List UInt8} {symbols : Vector TxSymbol n} {l : List TxSymbol}
    {currentState : ShiftState} (h : Written symbols l)
    (hfit : l.length + (codesOf currentState text).length * 7 ≤ n) :
    ∃ symbols', fill line symbols l.length currentState text
        = .ok (symbols', (l ++ symbolsOf line (codesOf currentState text)).length) ∧
      Written symbols' (l ++ symbolsOf line (codesOf currentState text)) := by
  induction text generalizing symbols l currentState with
  | nil =>
      have hend : l ++ symbolsOf line (codesOf currentState []) = l := List.append_nil l
      rw [hend]
      exact ⟨symbols, rfl, h⟩
  | cons ch text ih =>
      rw [fill]
      rw [codesOf] at hfit ⊢
      revert hfit
      cases asciiToIta2 ch with
      | none => exact fun hfit => ih h hfit
      | some p =>
          obtain ⟨code, reqShift⟩ := p
          intro hfit
          dsimp only at hfit ⊢
          by_cases hshift : reqShift ≠ .any ∧ reqShift ≠ currentState
          · rw [if_pos hshift, List.length_cons, List.length_cons] at hfit
            obtain ⟨arr₁, h₁, hw₁⟩ := @pushBaudot_spec n line _ _ (shiftCode reqShift) h (by omega)
            obtain ⟨arr₂, h₂, hw₂⟩ := @pushBaudot_spec n line _ _ code hw₁ (by
              rw [List.length_append, baudotSymbols_length]
              omega)
            obtain ⟨arr₃, h₃, hw₃⟩ := @ih arr₂ _ reqShift hw₂ (by
              rw [List.length_append, List.length_append, baudotSymbols_length,
                baudotSymbols_length]
              omega)
            rw [if_pos hshift, if_pos hshift, h₁, ok_bind, h₂, ok_bind, append_symbolsOf_cons,
              append_symbolsOf_cons]
            exact ⟨arr₃, h₃, hw₃⟩
          · rw [if_neg hshift, List.length_cons] at hfit
            obtain ⟨arr₁, h₁, hw₁⟩ := @pushBaudot_spec n line _ _ code h (by omega)
            obtain ⟨arr₂, h₂, hw₂⟩ := @ih arr₁ _ currentState hw₁ (by
              rw [List.length_append, baudotSymbols_length]
              omega)
            rw [if_neg hshift, if_neg hshift, h₁, ok_bind, append_symbolsOf_cons]
            exact ⟨arr₂, h₂, hw₂⟩

end Writing

/-! ## The receiver -/

/-- A bit: mark is 1 and space is 0. -/
def readBit (mark space : Rat) (s : TxSymbol) : Option Bool :=
  if s.freqOffsetHz = mark then some true
  else if s.freqOffsetHz = space then some false
  else none

/-- Groups of seven symbols to codes: start at space, five bits from the low end, stop at mark. -/
def readCodes (mark space : Rat) : List TxSymbol → Option (List UInt8)
  | [] => some []
  | start :: b₀ :: b₁ :: b₂ :: b₃ :: b₄ :: stop :: rest => do
      let start ← readBit mark space start
      let b₀ ← readBit mark space b₀
      let b₁ ← readBit mark space b₁
      let b₂ ← readBit mark space b₂
      let b₃ ← readBit mark space b₃
      let b₄ ← readBit mark space b₄
      let stop ← readBit mark space stop
      if start = false ∧ stop = true then do
        let codes ← readCodes mark space rest
        let code := b₀.toNat + 2 * b₁.toNat + 4 * b₂.toNat + 8 * b₃.toNat + 16 * b₄.toNat
        return UInt8.ofNat code :: codes
      else none
  | _ => none

/-- Codes to characters, following the codes that change over. -/
def readText (figs : Bool) : List UInt8 → List UInt8
  | [] => []
  | code :: codes =>
      if code = baudotLtrsShift then readText false codes
      else if code = baudotFigsShift then readText true codes
      else tableChar figs code :: readText figs codes

/-- A receiver that starts from letters. -/
def receive (mark space : Rat) (symbols : List TxSymbol) : Option (List UInt8) :=
  (readCodes mark space symbols).map (readText false)

/-- Five bits make the code. -/
theorem bits_code {code : UInt8} (h : code.toNat < 32) :
    UInt8.ofNat (((code >>> UInt8.ofNat 0) &&& 0x01 != 0).toNat
      + 2 * ((code >>> UInt8.ofNat 1) &&& 0x01 != 0).toNat
      + 4 * ((code >>> UInt8.ofNat 2) &&& 0x01 != 0).toNat
      + 8 * ((code >>> UInt8.ofNat 3) &&& 0x01 != 0).toNat
      + 16 * ((code >>> UInt8.ofNat 4) &&& 0x01 != 0).toNat) = code := by
  have hall : ∀ k : Fin 32, UInt8.ofNat (((UInt8.ofNat k.val >>> UInt8.ofNat 0) &&& 0x01 != 0).toNat
      + 2 * ((UInt8.ofNat k.val >>> UInt8.ofNat 1) &&& 0x01 != 0).toNat
      + 4 * ((UInt8.ofNat k.val >>> UInt8.ofNat 2) &&& 0x01 != 0).toNat
      + 8 * ((UInt8.ofNat k.val >>> UInt8.ofNat 3) &&& 0x01 != 0).toNat
      + 16 * ((UInt8.ofNat k.val >>> UInt8.ofNat 4) &&& 0x01 != 0).toNat) = UInt8.ofNat k.val := by
    decide
  have := hall ⟨code.toNat, h⟩
  rwa [UInt8.ofNat_toNat] at this

/-- **The symbols of codes are read back**, as long as mark and space are two frequencies. -/
theorem readCodes_symbolsOf {line : Line} (hline : line.mark ≠ line.space) {codes : List UInt8}
    (hcodes : ∀ code ∈ codes, code.toNat < 32) :
    readCodes line.mark line.space (symbolsOf line codes) = some codes := by
  have hmark : ∀ us on, readBit line.mark line.space ⟨line.mark, us, on⟩ = some true := by
    intro us on
    exact if_pos rfl
  have hspace : ∀ us on, readBit line.mark line.space ⟨line.space, us, on⟩ = some false := by
    intro us on
    unfold readBit
    rw [if_neg hline.symm, if_pos rfl]
  have hbit : ∀ (b : Bool) us on, readBit line.mark line.space
      ⟨if b then line.mark else line.space, us, on⟩ = some b := by
    intro b us on
    cases b with
    | true => exact hmark us on
    | false => exact hspace us on
  induction codes with
  | nil => rfl
  | cons code codes ih =>
      have hrest := ih (fun c hc => hcodes c (by simp [hc]))
      have hcode := bits_code (hcodes code (by simp))
      show readCodes line.mark line.space (_ :: _ :: _ :: _ :: _ :: _ :: _ :: symbolsOf line codes) = _
      rw [readCodes, hspace, hbit, hbit, hbit, hbit, hbit, hmark, hrest]
      simp only [Option.bind_eq_bind, Option.bind_some, and_self, if_true]
      rw [hcode]
      rfl

/-! ## The text of the codes -/

theorem readText_shift {reqShift : ShiftState} (h : reqShift ≠ .any) (figs : Bool)
    (codes : List UInt8) :
    readText figs (shiftCode reqShift :: codes) = readText (decide (reqShift = .figs)) codes := by
  cases reqShift with
  | any => exact absurd rfl h
  | ltrs => rfl
  | figs => rfl

theorem readText_code {code : UInt8} (h : code ≠ baudotLtrsShift ∧ code ≠ baudotFigsShift)
    (figs : Bool) (codes : List UInt8) :
    readText figs (code :: codes) = tableChar figs code :: readText figs codes := by
  rw [readText, if_neg h.1, if_neg h.2]

/-- A code that asks for no other table is read in the table in force. -/
theorem Encodes.read {c code : UInt8} {reqShift currentState : ShiftState}
    (h : Encodes c code reqShift) (hreq : ¬ (reqShift ≠ .any ∧ reqShift ≠ currentState))
    (hstate : currentState ≠ .any) : tableChar (decide (currentState = .figs)) code = c := by
  cases currentState with
  | any => exact absurd rfl hstate
  | ltrs => exact h.ltrs (fun heq => hreq (by subst heq; exact ⟨by decide, by decide⟩))
  | figs => exact h.figs (fun heq => hreq (by subst heq; exact ⟨by decide, by decide⟩))

/-- **The codes of a text are read back**, by a receiver that is in the same table. -/
theorem readText_codesOf {text : List UInt8} (htext : ∀ c ∈ text, c ≠ 0)
    {currentState : ShiftState} (hstate : currentState ≠ .any) :
    readText (decide (currentState = .figs)) (codesOf currentState text)
      = (text.map toupper).filter inTables := by
  induction text generalizing currentState with
  | nil => rfl
  | cons ch text ih =>
      have hrest : ∀ c ∈ text, c ≠ 0 := fun c hc => htext c (by simp [hc])
      obtain ⟨hsome, hnone⟩ := asciiToIta2_spec (htext ch (by simp))
      rw [codesOf, List.map_cons]
      cases hc : asciiToIta2 ch with
      | none =>
          rw [List.filter_cons_of_neg (by rw [hnone hc]; decide)]
          exact ih hrest hstate
      | some p =>
          obtain ⟨code, reqShift⟩ := p
          obtain ⟨henc, hin⟩ := hsome code reqShift hc
          rw [List.filter_cons_of_pos hin]
          dsimp only
          by_cases hshift : reqShift ≠ .any ∧ reqShift ≠ currentState
          · -- The shift code puts the receiver in the table asked for.
            have hown : ¬ (reqShift ≠ .any ∧ reqShift ≠ reqShift) := fun h => h.2 rfl
            rw [if_pos hshift, readText_shift hshift.1, readText_code henc.noShift,
              henc.read hown hshift.1, ih hrest hshift.1]
          · rw [if_neg hshift, readText_code henc.noShift, henc.read hshift hstate,
              ih hrest hstate]

theorem codesOf_lt {text : List UInt8} (htext : ∀ c ∈ text, c ≠ 0) (currentState : ShiftState) :
    ∀ code ∈ codesOf currentState text, code.toNat < 32 := by
  induction text generalizing currentState with
  | nil =>
      intro code hmem
      cases hmem
  | cons ch text ih =>
      have hrest : ∀ c ∈ text, c ≠ 0 := fun c hc => htext c (by simp [hc])
      rw [codesOf]
      cases hc : asciiToIta2 ch with
      | none => exact ih hrest currentState
      | some p =>
          obtain ⟨own, reqShift⟩ := p
          have hown := ((asciiToIta2_spec (htext ch (by simp))).1 own reqShift hc).1.fits
          have hshift : (shiftCode reqShift).toNat < 32 := by
            cases reqShift <;> decide
          dsimp only
          split
          · intro code hmem
            rcases List.mem_cons.mp hmem with rfl | hmem
            · exact hshift
            rcases List.mem_cons.mp hmem with rfl | hmem
            · exact hown
            · exact ih hrest reqShift code hmem
          · intro code hmem
            rcases List.mem_cons.mp hmem with rfl | hmem
            · exact hown
            · exact ih hrest currentState code hmem

/-! ## The generator -/

/-- Mark and space are two frequencies when the shift is not zero. -/
theorem mark_ne_space {config : RttyConfig} (h : 0 < config.shiftHz.toNat) :
    markOffset config ≠ spaceOffset config := by
  have hshift : (0 : Rat) < (config.shiftHz.toNat : Rat) := Rat.natCast_pos.mpr h
  unfold markOffset spaceOffset
  dsimp only
  generalize (config.shiftHz.toNat : Rat) = shift at hshift
  have hzero : shift ≠ 0 := by grind
  have hhalf : shift / 2 ≠ -(shift / 2) := by grind
  cases config.useCenterFreq with
  | true =>
      cases config.reverseShift with
      | true => exact hhalf.symm
      | false => exact hhalf
  | false =>
      cases config.reverseShift with
      | true => exact hzero
      | false => exact hzero.symm

section Generate

variable {bitUsec : Rat → UInt32} {stopUs : UInt32 → Rat → UInt32}

/-- **What the generator leaves in the sequence.** The symbols of the codes, as many as it counted. -/
theorem generate_spec {malloc : Malloc} {text : List UInt8} {mem : Vector TxSymbol _}
    (hmem : malloc ((countCodes text).1 * 7) = some mem) (config : RttyConfig)
    (seq : SequenceRecord) :
    generateRttySequence bitUsec stopUs malloc (some text) (some config) seq = .ok (0, { seq with
      symbols := some (symbolsOf (lineOf bitUsec stopUs config) (codesOf .ltrs text))
      totalSymbols := (countCodes text).1 * 7
      currentIndex := 0 }) := by
  have hcount := countCodes_eq text
  obtain ⟨symbols, hfill, hw⟩ := @fill_spec _ (lineOf bitUsec stopUs config) text mem [] .ltrs
    (written_nil mem) (by rw [List.length_nil, hcount]; omega)
  rw [List.nil_append] at hfill hw
  -- The whole array is written: nothing is behind the last symbol.
  have hall : symbols.toList = symbolsOf (lineOf bitUsec stopUs config) (codesOf .ltrs text) :=
    hw.full (by rw [symbolsOf_length, hcount])
  unfold generateRttySequence
  dsimp only
  rw [hmem]
  dsimp only
  rw [List.length_nil] at hfill
  rw [hfill, ok_bind, hall]
  rfl

/-- **What a teletype sends is what it is given.** The generator succeeds and its symbols are as many
as it says. All of them are its own: they are the same for whatever was in the memory it was given.
A receiver that starts from letters and knows mark and space reads the text from them, in upper
case and without the characters that are in neither table. -/
theorem teletype_text {text : List UInt8} (htext : ∀ c ∈ text, c ≠ 0) {config : RttyConfig}
    (hshift : 0 < config.shiftHz.toNat) :
    ∃ symbols : List TxSymbol,
      (∀ (malloc : Malloc) (mem : Vector TxSymbol _) (seq : SequenceRecord),
        malloc ((countCodes text).1 * 7) = some mem →
        generateRttySequence bitUsec stopUs malloc (some text) (some config) seq = .ok (0, { seq with
          symbols := some symbols
          totalSymbols := symbols.length
          currentIndex := 0 })) ∧
      receive (markOffset config) (spaceOffset config) symbols
        = some ((text.map toupper).filter inTables) := by
  refine ⟨symbolsOf (lineOf bitUsec stopUs config) (codesOf .ltrs text), ?_, ?_⟩
  · intro malloc mem seq hmem
    rw [generate_spec hmem config seq, symbolsOf_length, countCodes_eq]
  · have hcodes := @readCodes_symbolsOf (lineOf bitUsec stopUs config) (mark_ne_space hshift) _
      (codesOf_lt htext .ltrs)
    have hread := readText_codesOf htext (show ShiftState.ltrs ≠ .any by decide)
    unfold receive
    rw [show markOffset config = (lineOf bitUsec stopUs config).mark from rfl,
      show spaceOffset config = (lineOf bitUsec stopUs config).space from rfl, hcodes]
    exact congrArg some hread

end Generate

/-- "Call 73 now!" at a shift of 170 Hz around the center, 22 ms a bit and a stop of one and a
half. -/
theorem teletype_text_call :
    ∃ symbols, generateRttySequence (fun _ => 22000) (fun _ _ => 33000)
        (fun n => some (Vector.replicate n ⟨0, 0, false⟩)) (some (Ftx.literal "Call 73 now!"))
        (some ⟨91 / 2, 170, 3 / 2, false, true⟩) ⟨0, none, 0, 0, false⟩
          = .ok (0, ⟨0, some symbols, symbols.length, 0, false⟩) ∧
      receive (170 / 2) (-(170 / 2)) symbols = some (Ftx.literal "CALL 73 NOW!") := by
  obtain ⟨symbols, hgen, hread⟩ :=
    @teletype_text (fun _ => 22000) (fun _ _ => 33000) (Ftx.literal "Call 73 now!")
      (Ftx.noNul_of_all rfl) ⟨91 / 2, 170, 3 / 2, false, true⟩ (by decide)
  have htext : ((Ftx.literal "Call 73 now!").map toupper).filter inTables
      = Ftx.literal "CALL 73 NOW!" := by decide
  rw [htext] at hread
  exact ⟨symbols, hgen (fun n => some (Vector.replicate n ⟨0, 0, false⟩)) _
    ⟨0, none, 0, 0, false⟩ rfl, hread⟩

end MiniHF.Modes.Rtty
