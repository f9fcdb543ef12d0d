import MiniHF.Modes.RttyProof
import MiniHF.Radio.RepeatProof

/-!
# A teletype text that repeats

The generator writes the codes of a text for a receiver in letters. When the engine
plays the sequence over and over, the receiver is in whatever table the pass before
has left it. That is the table of the last character that is in one table only, so
the passes are alike as long as that is not a figure.
-/

namespace MiniHF.Modes.Rtty

open Buffer Device Interrupts Runs

/-! ## The table in force -/

/-- The table a receiver is in behind codes. -/
def tableAfter (figs : Bool) : List UInt8 → Bool
  | [] => figs
  | code :: codes =>
      if code = baudotLtrsShift then tableAfter false codes
      else if code = baudotFigsShift then tableAfter true codes
      else tableAfter figs codes

theorem tableAfter_append (figs : Bool) (xs ys : List UInt8) :
    tableAfter figs (xs ++ ys) = tableAfter (tableAfter figs xs) ys := by
  induction xs generalizing figs with
  | nil => rfl
  | cons code xs ih =>
      rw [List.cons_append, tableAfter, tableAfter, ih, ih, ih]
      split
      · rfl
      · split <;> rfl

/-- The tables of the characters that are in one table only. -/
def tablesOf (text : List UInt8) : List ShiftState :=
  text.filterMap fun ch =>
    match asciiToIta2 ch with
    | some (_, .ltrs) => some .ltrs
    | some (_, .figs) => some .figs
    | _ => none

theorem tableAfter_shift {reqShift : ShiftState} (h : reqShift ≠ .any) (figs : Bool)
    (codes : List UInt8) :
    tableAfter figs (shiftCode reqShift :: codes) = tableAfter (decide (reqShift = .figs)) codes := by
  cases reqShift with
  | any => exact absurd rfl h
  | ltrs => rfl
  | figs => rfl

theorem tableAfter_code {code : UInt8} (h : code ≠ baudotLtrsShift ∧ code ≠ baudotFigsShift)
    (figs : Bool) (codes : List UInt8) : tableAfter figs (code :: codes) = tableAfter figs codes := by
  rw [tableAfter, if_neg h.1, if_neg h.2]

theorem tablesOf_cons_none {ch : UInt8} (h : asciiToIta2 ch = none) (text : List UInt8) :
    tablesOf (ch :: text) = tablesOf text := by
  unfold tablesOf
  rw [List.filterMap_cons, h]

theorem tablesOf_cons_some {ch code : UInt8} {reqShift : ShiftState}
    (h : asciiToIta2 ch = some (code, reqShift)) (text : List UInt8) :
    tablesOf (ch :: text) = if reqShift = .any then tablesOf text else reqShift :: tablesOf text := by
  unfold tablesOf
  rw [List.filterMap_cons, h]
  cases reqShift <;> rfl

/-- **A text leaves a receiver in the table of the last character that is in one only.** -/
theorem tableAfter_codesOf {text : List UInt8} (htext : ∀ c ∈ text, c ≠ 0)
    (currentState : ShiftState) :
    tableAfter (decide (currentState = .figs)) (codesOf currentState text)
      = decide ((tablesOf text).getLast?.getD currentState = .figs) := by
  induction text generalizing currentState with
  | nil => rfl
  | cons ch text ih =>
      have hrest : ∀ c ∈ text, c ≠ 0 := fun c hc => htext c (List.mem_cons_of_mem _ hc)
      rw [codesOf]
      cases hc : asciiToIta2 ch with
      | none =>
          rw [tablesOf_cons_none hc]
          exact ih hrest currentState
      | some p =>
          obtain ⟨code, reqShift⟩ := p
          have hno := ((asciiToIta2_spec (htext ch List.mem_cons_self)).1 code reqShift hc).1.noShift
          rw [tablesOf_cons_some hc]
          dsimp only
          -- the table changes only for a character that is in the other one
          by_cases hany : reqShift = .any
          · rw [if_pos hany, if_neg (fun h => h.1 hany), tableAfter_code hno]
            exact ih hrest currentState
          · rw [if_neg hany, List.getLast?_cons]
            by_cases hsame : reqShift = currentState
            · rw [if_neg (fun h => h.2 hsame), tableAfter_code hno, ih hrest, hsame]
              rfl
            · rw [if_pos ⟨hany, hsame⟩, tableAfter_shift hany, tableAfter_code hno, ih hrest]
              rfl

/-- A receiver that starts in letters ends in letters unless the last of those is a figure. -/
theorem ends_in_letters_iff {text : List UInt8} (htext : ∀ c ∈ text, c ≠ 0) :
    tableAfter false (codesOf .ltrs text) = false ↔ (tablesOf text).getLast? ≠ some .figs := by
  have hleft := tableAfter_codesOf htext .ltrs
  rw [show decide (ShiftState.ltrs = .figs) = false from rfl] at hleft
  rw [hleft, decide_eq_false_iff_not]
  cases (tablesOf text).getLast? with
  | none => exact iff_of_true (by decide) (by decide)
  | some s => exact not_congr (Option.some.injEq s .figs).symm.to_iff

/-! ## A receiver that goes on -/

/-- The table in force behind symbols, for a receiver that started from letters. -/
def inForce (mark space : Rat) (heard : List TxSymbol) : Option Bool :=
  (readCodes mark space heard).map (tableAfter false)

/-- What it reads from the symbols that follow. -/
def readOn (mark space : Rat) (heard symbols : List TxSymbol) : Option (List UInt8) :=
  match inForce mark space heard, readCodes mark space symbols with
  | some figs, some codes => some (readText figs codes)
  | _, _ => none

/-- A pass finds the receiver in letters, and it reads the text from it. -/
structure Received (config : RttyConfig) (text : List UInt8) (total : Nat)
    (applied : List TxSymbol) (j : Nat) : Prop where
  letters : inForce (markOffset config) (spaceOffset config) (applied.take (j * total)) = some false
  text : readOn (markOffset config) (spaceOffset config) (applied.take (j * total))
    ((applied.drop (j * total)).take total) = some ((text.map toupper).filter inTables)

theorem replicate_symbolsOf (line : Line) (codes : List UInt8) (j : Nat) :
    (List.replicate j (symbolsOf line codes)).flatten
      = symbolsOf line (List.replicate j codes).flatten := by
  induction j with
  | zero => rfl
  | succ j ih =>
      rw [List.replicate_succ, List.replicate_succ, List.flatten_cons, List.flatten_cons, ih]
      exact (List.flatMap_append).symm

/-- Passes that leave letters leave letters. -/
theorem tableAfter_replicate {codes : List UInt8} (h : tableAfter false codes = false) (j : Nat) :
    tableAfter false (List.replicate j codes).flatten = false := by
  induction j with
  | zero => rfl
  | succ j ih => rw [List.replicate_succ, List.flatten_cons, tableAfter_append, h, ih]

/-- With one frequency nothing can be read. -/
theorem readCodes_one {line : Line} (h : line.mark = line.space) {codes : List UInt8}
    (hcodes : codes ≠ []) : readCodes line.mark line.space (symbolsOf line codes) = none := by
  cases codes with
  | nil => exact absurd rfl hcodes
  | cons code codes =>
      have hspace : ∀ us on, readBit line.mark line.space ⟨line.space, us, on⟩ = some true := by
        intro us on
        exact if_pos h.symm
      have hbit : ∀ (b : Bool) us on, readBit line.mark line.space
          ⟨if b then line.mark else line.space, us, on⟩ = some true := by
        intro b us on
        cases b with
        | true => exact if_pos rfl
        | false => exact hspace us on
      have hmark : ∀ us on, readBit line.mark line.space ⟨line.mark, us, on⟩ = some true :=
        hbit true
      show readCodes line.mark line.space (_ :: _ :: _ :: _ :: _ :: _ :: _ :: symbolsOf line codes) = _
      rw [readCodes, hspace, hbit, hbit, hbit, hbit, hbit, hmark]
      rfl

theorem mark_eq_space {config : RttyConfig} (h : config.shiftHz.toNat = 0) :
    markOffset config = spaceOffset config := by
  have hzero : ((0 : Nat) : Rat) = 0 := rfl
  have hhalf : (0 : Rat) / 2 = 0 := by grind
  have hneg : -(0 : Rat) = 0 := by grind
  unfold markOffset spaceOffset
  dsimp only
  rw [h, hzero, hhalf, hneg]

/-! ## The passes -/

section Passes

variable {text : List UInt8} {applied : List TxSymbol} {k : Nat}

/-- Symbols and codes of a pass. -/
structure Passes (line : Line) (text : List UInt8) (total k : Nat) (applied : List TxSymbol) :
    Prop where
  front : ∀ j < k, applied.take (j * total)
    = symbolsOf line (List.replicate j (codesOf .ltrs text)).flatten
  pass : ∀ j < k, (applied.drop (j * total)).take total = symbolsOf line (codesOf .ltrs text)

section Received

variable {bitUsec : Rat → UInt32} {stopUs : UInt32 → Rat → UInt32} {config : RttyConfig}
  {total : Nat}

/-- The table in force at the start of a pass is what the passes before it have left. -/
theorem inForce_front (htext : ∀ c ∈ text, c ≠ 0) (hshift : 0 < config.shiftHz.toNat)
    (h : Passes (lineOf bitUsec stopUs config) text total k applied) {j : Nat} (hj : j < k) :
    inForce (markOffset config) (spaceOffset config) (applied.take (j * total))
      = some (tableAfter false (List.replicate j (codesOf .ltrs text)).flatten) := by
  have hlt : ∀ code ∈ (List.replicate j (codesOf .ltrs text)).flatten, code.toNat < 32 := by
    intro code hmem
    obtain ⟨codes, hin, hcode⟩ := List.mem_flatten.mp hmem
    rw [(List.mem_replicate.mp hin).2] at hcode
    exact codesOf_lt htext .ltrs code hcode
  have hread := @readCodes_symbolsOf (lineOf bitUsec stopUs config) (mark_ne_space hshift) _ hlt
  unfold inForce
  rw [h.front j hj]
  exact congrArg (Option.map (tableAfter false)) hread

/-- A pass that finds the receiver in letters is the text. -/
theorem readOn_pass (htext : ∀ c ∈ text, c ≠ 0) (hshift : 0 < config.shiftHz.toNat)
    (h : Passes (lineOf bitUsec stopUs config) text total k applied) {j : Nat} (hj : j < k)
    (hletters : inForce (markOffset config) (spaceOffset config) (applied.take (j * total))
      = some false) :
    readOn (markOffset config) (spaceOffset config) (applied.take (j * total))
      ((applied.drop (j * total)).take total) = some ((text.map toupper).filter inTables) := by
  have hread := @readCodes_symbolsOf (lineOf bitUsec stopUs config) (mark_ne_space hshift) _
    (codesOf_lt htext .ltrs)
  unfold readOn
  rw [hletters, h.pass j hj]
  dsimp only [lineOf] at hread ⊢
  rw [hread]
  exact congrArg some (readText_codesOf htext (show ShiftState.ltrs ≠ .any by decide))

/-- A receiver that has read a pass can tell mark from space. -/
theorem Received.shift (hcodes : codesOf .ltrs text ≠ [])
    (h : Passes (lineOf bitUsec stopUs config) text total k applied) {j : Nat} (hj : j < k)
    (hrec : Received config text total applied j) : 0 < config.shiftHz.toNat := by
  rcases Nat.eq_zero_or_pos config.shiftHz.toNat with hzero | hpos
  · have hnone := @readCodes_one (lineOf bitUsec stopUs config) (mark_eq_space hzero) _ hcodes
    have hread := hrec.text
    unfold readOn at hread
    rw [h.pass j hj] at hread
    dsimp only [lineOf] at hnone hread
    rw [hnone] at hread
    split at hread
    · next hsome => cases hsome
    · cases hread
  · exact hpos

/-- **Every pass is received exactly if the text does not end in figures**, or there is one only. -/
theorem received_iff (htext : ∀ c ∈ text, c ≠ 0) (hk : 1 ≤ k) (hcodes : codesOf .ltrs text ≠ [])
    (h : Passes (lineOf bitUsec stopUs config) text total k applied) :
    (∀ j < k, Received config text total applied j)
      ↔ 0 < config.shiftHz.toNat ∧ (k = 1 ∨ (tablesOf text).getLast? ≠ some .figs) := by
  constructor
  · intro hall
    have hshift := (hall 0 hk).shift hcodes h hk
    refine ⟨hshift, ?_⟩
    rcases Nat.lt_or_ge 1 k with hmore | hone
    · -- the second pass begins where the first one ends
      right
      have hfront := (inForce_front htext hshift h hmore).symm.trans (hall 1 hmore).letters
      rw [List.replicate_one, List.flatten_singleton, Option.some.injEq] at hfront
      exact (ends_in_letters_iff htext).mp hfront
    · -- there is one pass, and it starts in letters
      exact .inl (Nat.le_antisymm hone hk)
  · rintro ⟨hshift, hlast⟩ j hj
    have hletters : tableAfter false (List.replicate j (codesOf .ltrs text)).flatten = false := by
      rcases hlast with hone | hlast
      · have hzero : j = 0 := by omega
        rw [hzero]
        rfl
      · exact tableAfter_replicate ((ends_in_letters_iff htext).mpr hlast) j
    have hstart := inForce_front htext hshift h hj
    rw [hletters] at hstart
    exact ⟨hstart, readOn_pass htext hshift h hj hstart⟩

end Received

end Passes

/-! ## The engine -/

/-- What the engine is given: the sequence as the generator has left it, set to repeat. -/
structure Repeats (seq : SequenceRecord) (orig : TxSequence) : Prop where
  symbols : seq.symbols = some orig.symbols
  count : seq.totalSymbols = orig.totalSymbols
  repeats : orig.repeats = true

section Generate

variable {bitUsec : Rat → UInt32} {stopUs : UInt32 → Rat → UInt32}

/-- A generator that succeeds leaves the symbols of the codes, and their number. -/
theorem generated_symbols {malloc : Malloc} {text : List UInt8} {config : RttyConfig}
    {seq seq' : SequenceRecord}
    (hgen : generateRttySequence bitUsec stopUs malloc (some text) (some config) seq = .ok (0, seq'))
    {orig : TxSequence} (hseq : Repeats seq' orig) :
    orig.symbols = symbolsOf (lineOf bitUsec stopUs config) (codesOf .ltrs text) ∧
      orig.totalSymbols = orig.symbols.length := by
  cases hmem : malloc ((countCodes text).1 * 7) with
  | none =>
      unfold generateRttySequence at hgen
      dsimp only at hgen
      rw [hmem] at hgen
      cases hgen
  | some mem =>
      rw [generate_spec hmem config seq] at hgen
      cases hgen
      have hsymbols := Option.some.inj hseq.symbols
      refine ⟨hsymbols.symm, ?_⟩
      rw [← hseq.count, ← hsymbols, symbolsOf_length, countCodes_eq]

/-- **What the engine plays of a generated sequence are passes of its codes.** -/
theorem engine_passes {malloc : Malloc} {text : List UInt8} {config : RttyConfig}
    {seq seq' : SequenceRecord}
    (hgen : generateRttySequence bitUsec stopUs malloc (some text) (some config) seq = .ok (0, seq'))
    {orig : TxSequence} (hseq : Repeats seq' orig) {d : Device} (hinit : d.schedule = initSchedule)
    (es : List (Event EngineOp))
    (hdone : (run (interleavedStep engine) ⟨d, .done⟩ es).todo = .done)
    (horig : (run (interleavedStep engine) ⟨d, .done⟩ es).state.started = some orig) {k : Nat}
    (hpasses : k * orig.totalSymbols
      ≤ (run (interleavedStep engine) ⟨d, .done⟩ es).state.applied.length) :
    codesOf .ltrs text ≠ [] ∧ Passes (lineOf bitUsec stopUs config) text orig.totalSymbols k
      (run (interleavedStep engine) ⟨d, .done⟩ es).state.applied := by
  obtain ⟨hsymbols, hcount⟩ := generated_symbols hgen hseq
  obtain ⟨hnonempty, happlied⟩ := applied_eq hinit es hdone horig
  have hpass := fun j (hj : j < k) =>
    played_pass hcount (Nat.le_trans (Nat.mul_le_mul_right orig.totalSymbols hj) hpasses)
  rw [← happlied] at hpass
  refine ⟨?_, ?_, ?_⟩
  · intro hnil
    rw [hcount, hsymbols, hnil] at hnonempty
    exact hnonempty rfl
  · intro j hj
    rw [(hpass j hj).1, hsymbols, replicate_symbolsOf]
  · intro j hj
    rw [(hpass j hj).2, hsymbols]

/--
**A text that repeats.**

In every run of the engine in which it has played the sequence of a text `k` times,
the receiver is in letters at the start of each of the passes and reads the text
from it if and only if it can tell mark from space, and there is one pass only or
the text does not end in figures.
-/
theorem repeated_text {malloc : Malloc} {text : List UInt8} (htext : ∀ c ∈ text, c ≠ 0)
    {config : RttyConfig} {seq seq' : SequenceRecord}
    (hgen : generateRttySequence bitUsec stopUs malloc (some text) (some config) seq = .ok (0, seq'))
    {orig : TxSequence} (hseq : Repeats seq' orig) {d : Device} (hinit : d.schedule = initSchedule)
    (es : List (Event EngineOp))
    (hdone : (run (interleavedStep engine) ⟨d, .done⟩ es).todo = .done)
    (horig : (run (interleavedStep engine) ⟨d, .done⟩ es).state.started = some orig) {k : Nat}
    (hk : 1 ≤ k)
    (hpasses : k * orig.totalSymbols
      ≤ (run (interleavedStep engine) ⟨d, .done⟩ es).state.applied.length) :
    (∀ j < k, Received config text orig.totalSymbols
        (run (interleavedStep engine) ⟨d, .done⟩ es).state.applied j)
      ↔ 0 < config.shiftHz.toNat ∧ (k = 1 ∨ (tablesOf text).getLast? ≠ some .figs) := by
  obtain ⟨hcodes, hpass⟩ := engine_passes hgen hseq hinit es hdone horig hpasses
  exact received_iff htext hk hcodes hpass

end Generate

/-- 170 Hz of shift. -/
def shift170 : RttyConfig := ⟨91 / 2, 170, 3 / 2, false, true⟩

/-- The sequence of a text at 22 ms a bit, set to repeat. -/
def repeating (text : List UInt8) : TxSequence :=
  let symbols := symbolsOf (lineOf (fun _ => 22000) (fun _ _ => 33000) shift170) (codesOf .ltrs text)
  { baseFreqHz := 0, symbols, totalSymbols := symbols.length, currentIndex := 0, repeats := true
    valid := Nat.le_refl _ }

/-- What the generator leaves of a text. -/
theorem generated_repeating (text : List UInt8) :
    ∃ seq', generateRttySequence (fun _ => 22000) (fun _ _ => 33000)
        (fun n => some (Vector.replicate n ⟨0, 0, false⟩)) (some text) (some shift170)
        ⟨0, none, 0, 0, true⟩ = .ok (0, seq') ∧ Repeats seq' (repeating text) := by
  refine ⟨_, generate_spec rfl shift170 _, rfl, ?_, rfl⟩
  show _ = (symbolsOf _ _).length
  rw [symbolsOf_length, countCodes_eq]

/-- "CQ" three times. -/
theorem repeated_text_cq :
    ∃ es : List (Event EngineOp),
      let m := run (interleavedStep engine) ⟨boot (fun _ => 0) ⟨0, 0, 0, 0, 0, 0⟩ 0 [], .done⟩ es
      m.state.applied.length = 42 ∧
        ∀ j < 3, Received shift170 (Ftx.literal "CQ") 14 m.state.applied j := by
  obtain ⟨seq', hgen, hseq⟩ := generated_repeating (Ftx.literal "CQ")
  obtain ⟨es, hdone, horig, hlen⟩ := plays_on (boot (fun _ => 0) ⟨0, 0, 0, 0, 0, 0⟩ 0 [])
    (show (repeating (Ftx.literal "CQ")).totalSymbols ≠ 0 by decide) rfl 41
  refine ⟨es, hlen, ?_⟩
  exact (repeated_text (Ftx.noNul_of_all rfl) hgen hseq rfl es hdone horig (by decide)
    (by rw [hlen]; decide)).mpr ⟨by decide, .inr (by decide)⟩

/-- **Not every text comes through twice**: "A1" leaves the receiver in figures. -/
theorem repeated_text_figures :
    ¬ ∀ (bitUsec : Rat → UInt32) (stopUs : UInt32 → Rat → UInt32) (malloc : Malloc)
      (text : List UInt8) (config : RttyConfig) (seq seq' : SequenceRecord) (orig : TxSequence)
      (d : Device) (es : List (Event EngineOp)) (k : Nat),
      (∀ c ∈ text, c ≠ 0) → 0 < config.shiftHz.toNat →
      generateRttySequence bitUsec stopUs malloc (some text) (some config) seq = .ok (0, seq') →
      Repeats seq' orig → d.schedule = initSchedule →
      (run (interleavedStep engine) ⟨d, .done⟩ es).todo = .done →
      (run (interleavedStep engine) ⟨d, .done⟩ es).state.started = some orig → 1 ≤ k →
      k * orig.totalSymbols ≤ (run (interleavedStep engine) ⟨d, .done⟩ es).state.applied.length →
      ∀ j < k, Received config text orig.totalSymbols
        (run (interleavedStep engine) ⟨d, .done⟩ es).state.applied j := by
  intro h
  have htext : ∀ c ∈ Ftx.literal "A1", c ≠ 0 := Ftx.noNul_of_all rfl
  obtain ⟨seq', hgen, hseq⟩ := generated_repeating (Ftx.literal "A1")
  obtain ⟨es, hdone, horig, hlen⟩ := plays_on (boot (fun _ => 0) ⟨0, 0, 0, 0, 0, 0⟩ 0 [])
    (show (repeating (Ftx.literal "A1")).totalSymbols ≠ 0 by decide) rfl 41
  have htotal : 2 * (repeating (Ftx.literal "A1")).totalSymbols = 41 + 1 := by decide
  have hpasses := Nat.le_of_eq (htotal.trans hlen.symm)
  obtain ⟨hcodes, hpass⟩ := engine_passes hgen hseq rfl es hdone horig hpasses
  have hall := h _ _ _ _ _ _ _ _ _ es 2 htext (by decide) hgen hseq rfl hdone horig (by decide) hpasses
  obtain ⟨-, hone | hlast⟩ := (received_iff htext (by decide) hcodes hpass).mp hall
  · cases hone
  · exact absurd rfl hlast

end MiniHF.Modes.Rtty
