import MiniHF.Modes.Cw
import MiniHF.Modes.Rtty
import MiniHF.Modes.WsprMessageProof

/-!
# What a failed generator leaves

A sequence is backed if there is a symbol for every index below its count. A
generator that refuses its input leaves the sequence alone, and the one for CW
sets the count to 0 where it gets no memory. The other two leave the count as it
was over no symbols at all, so a sequence with symbols is not backed after that.
-/

namespace MiniHF.Modes

open Buffer

/-! ## Sequences the engine can play -/

/-- What is read at `symbols[i]`; nothing where there is no such symbol. -/
def SequenceRecord.read (seq : SequenceRecord) (i : Nat) : Option TxSymbol :=
  match seq.symbols with
  | some symbols => symbols[i]?
  | none => none

/-- There are as many symbols as the count says. -/
def Backed (seq : SequenceRecord) : Prop :=
  seq.totalSymbols = 0 ∨ ∃ symbols, seq.symbols = some symbols ∧ seq.totalSymbols ≤ symbols.length

/-- The engine finds a symbol wherever it looks. -/
def Playable (seq : SequenceRecord) : Prop :=
  ∃ played : TxSequence, played.totalSymbols = seq.totalSymbols ∧
    ∀ i < seq.totalSymbols, seq.read i = some (played.symbol i)

theorem Backed.playable {seq : SequenceRecord} (h : Backed seq) : Playable seq := by
  rcases h with hzero | ⟨symbols, hsymbols, hle⟩
  · refine ⟨⟨seq.baseFreqHz, [], seq.totalSymbols, 0, seq.repeats, Nat.le_of_eq hzero⟩, rfl, ?_⟩
    intro i hi
    omega
  · refine ⟨⟨seq.baseFreqHz, symbols, seq.totalSymbols, 0, seq.repeats, hle⟩, rfl, ?_⟩
    intro i hi
    unfold SequenceRecord.read TxSequence.symbol
    rw [hsymbols]
    dsimp only
    rw [List.getD_eq_getElem?_getD, List.getElem?_eq_getElem (Nat.lt_of_lt_of_le hi hle)]
    rfl

/-! ## The generators -/

/-- A call of one of the three generators. -/
inductive Generation where
  | rtty (text : Option (List UInt8)) (config : Option Rtty.RttyConfig)
  | wspr (stack : Wspr.Stack) (payload : Option Wspr.WsprPayload)
  | cw (text : List UInt8) (wpm : UInt32)

section Generators

variable (bitUsec : Rat → UInt32) (stopUs : UInt32 → Rat → UInt32) (toneHz : UInt8 → Rat)

/-- The call fails and leaves `after`. The generator for CW returns nothing: it fails where it gets
no memory. -/
def Generation.Fails (malloc : Malloc) (before after : SequenceRecord) : Generation → Prop
  | .rtty text config => ∃ ret, ret ≠ 0 ∧
      Rtty.generateRttySequence bitUsec stopUs malloc text config before = .ok (ret, after)
  | .wspr stack payload => ∃ ret, ret ≠ 0 ∧
      Wspr.generateWsprSequence toneHz stack malloc payload before = .ok (ret, after)
  | .cw text wpm => malloc (Cw.estimatedCapacity text) = none ∧
      Cw.generateCwSequence malloc text wpm before = .ok after

/-- The generator for RTTY or WSPR gets to its allocation and no memory from it. -/
def Generation.Starved (malloc : Malloc) : Generation → Prop
  | .rtty text config => ∃ t c, text = some t ∧ config = some c ∧
      malloc ((Rtty.countCodes t).1 * 7) = none
  | .wspr _ payload => ∃ p, payload = some p ∧ Wspr.Accepted p ∧ malloc 162 = none
  | .cw _ _ => False

/-- **How a call of the generator for RTTY fails.** -/
theorem rtty_fails {malloc : Malloc} {before after : SequenceRecord} {text : Option (List UInt8)}
    {config : Option Rtty.RttyConfig} {ret : Int} (hret : ret ≠ 0)
    (h : Rtty.generateRttySequence bitUsec stopUs malloc text config before = .ok (ret, after)) :
    ((Generation.rtty text config).Starved malloc ∧ after = { before with symbols := none }) ∨
      (¬ (Generation.rtty text config).Starved malloc ∧ after = before) := by
  unfold Rtty.generateRttySequence at h
  split at h
  · next t c =>
      dsimp only at h
      split at h
      · next hmem =>
          left
          cases h
          exact ⟨⟨t, c, rfl, rfl, hmem⟩, rfl⟩
      · -- with memory it does not fail
        obtain ⟨filled, -, hok⟩ := of_bind_eq_ok h
        cases hok
        exact absurd rfl hret
  · next hmissing =>
      right
      cases h
      refine ⟨?_, rfl⟩
      rintro ⟨t, c, ht, hc, -⟩
      exact hmissing t c ht hc

/-- **How a call of the generator for WSPR fails.** -/
theorem wspr_fails {malloc : Malloc} {before after : SequenceRecord} {stack : Wspr.Stack}
    {payload : Option Wspr.WsprPayload} {ret : Int} (hret : ret ≠ 0)
    (h : Wspr.generateWsprSequence toneHz stack malloc payload before = .ok (ret, after)) :
    ((Generation.wspr stack payload).Starved malloc ∧ after = { before with symbols := none }) ∨
      (¬ (Generation.wspr stack payload).Starved malloc ∧ after = before) := by
  cases payload with
  | none =>
      right
      cases h
      refine ⟨?_, rfl⟩
      rintro ⟨p, hp, -⟩
      cases hp
  | some p =>
      by_cases hacc : Wspr.Accepted p
      · unfold Wspr.generateWsprSequence at h
        dsimp only at h
        rw [hacc.callsign, hacc.grid, hacc.power, if_neg (by simp), if_neg (by simp),
          if_neg (by simp), hacc.wsprEncode_eq] at h
        obtain ⟨⟨status, channelSymbols⟩, hcode, hrest⟩ := of_bind_eq_ok h
        obtain ⟨coded, -, hstatus⟩ := of_bind_eq_ok hcode
        cases hstatus
        dsimp only at hrest
        rw [if_neg (by simp)] at hrest
        split at hrest
        · next hmem =>
            left
            cases hrest
            exact ⟨⟨p, rfl, hacc, hmem⟩, rfl⟩
        · -- with memory it does not fail
          obtain ⟨filled, -, hok⟩ := of_bind_eq_ok hrest
          cases hok
          exact absurd rfl hret
      · right
        rw [Wspr.generate_refused hacc] at h
        cases h
        refine ⟨?_, rfl⟩
        rintro ⟨q, hq, hacc', -⟩
        cases hq
        exact hacc hacc'

end Generators

/-- Symbols that are dropped under a count leave a sequence unbacked, unless the count is 0. -/
theorem dropped_iff (seq : SequenceRecord) :
    (Backed { seq with symbols := none } ∧ Playable { seq with symbols := none })
      ↔ seq.totalSymbols = 0 := by
  constructor
  · rintro ⟨hzero | ⟨symbols, hsymbols, -⟩, -⟩
    · exact hzero
    · cases hsymbols
  · intro hzero
    have hback : Backed { seq with symbols := none } := .inl hzero
    exact ⟨hback, hback.playable⟩

/--
**What a failed generator leaves.**

A sequence that was backed is still backed, and can be played, unless the generator
for RTTY or WSPR got no memory and the count was not 0 before.
-/
theorem failed_generation (bitUsec : Rat → UInt32) (stopUs : UInt32 → Rat → UInt32)
    (toneHz : UInt8 → Rat) {malloc : Malloc} {before after : SequenceRecord} {g : Generation}
    (hbefore : Backed before) (hfail : g.Fails bitUsec stopUs toneHz malloc before after) :
    (Backed after ∧ Playable after) ↔ ¬ (g.Starved malloc ∧ before.totalSymbols ≠ 0) := by
  have hends : (g.Starved malloc ∧ after = { before with symbols := none }) ∨
      (¬ g.Starved malloc ∧ (after = before ∨ after.totalSymbols = 0)) := by
    cases g with
    | rtty text config =>
        obtain ⟨ret, hret, h⟩ := hfail
        exact (rtty_fails bitUsec stopUs hret h).imp_right (And.imp_right .inl)
    | wspr stack payload =>
        obtain ⟨ret, hret, h⟩ := hfail
        exact (wspr_fails toneHz hret h).imp_right (And.imp_right .inl)
    | cw text wpm =>
        -- this one sets the count to 0
        obtain ⟨hmem, h⟩ := hfail
        unfold Cw.generateCwSequence at h
        dsimp only at h
        rw [hmem] at h
        cases h
        exact .inr ⟨id, .inr rfl⟩
  rcases hends with ⟨hstarved, rfl⟩ | ⟨hfed, hafter⟩
  · rw [dropped_iff]
    constructor
    · rintro hzero ⟨-, hcount⟩
      exact hcount hzero
    · intro hnot
      rcases Nat.eq_zero_or_pos before.totalSymbols with hzero | hpos
      · exact hzero
      · exact absurd ⟨hstarved, Nat.ne_of_gt hpos⟩ hnot
  · have hback : Backed after := by
      rcases hafter with rfl | hzero
      · exact hbefore
      · exact .inl hzero
    exact iff_of_true ⟨hback, hback.playable⟩ (fun h => hfed h.1)

/-- A sequence of one symbol. -/
def oneSymbol : SequenceRecord :=
  { baseFreqHz := 10136000, symbols := some [⟨0, 1000, true⟩], totalSymbols := 1
    currentIndex := 0, repeats := false }

/-- A missing configuration leaves it alone. -/
theorem failed_generation_missing : Backed oneSymbol ∧ Playable oneSymbol :=
  (@failed_generation (fun _ => 0) (fun _ _ => 0) (fun _ => 0) (fun _ => none) oneSymbol oneSymbol
    (.rtty (some ['E'.toUInt8]) none) (.inr ⟨_, rfl, Nat.le_refl 1⟩) ⟨-1, by decide, rfl⟩).mpr (by
      rintro ⟨⟨_, _, -, hconfig, -⟩, -⟩
      cases hconfig)

/-- **A count over nothing**: a letter, and no memory for its seven symbols. -/
theorem failed_generation_starved :
    ¬ ∀ (bitUsec : Rat → UInt32) (stopUs : UInt32 → Rat → UInt32) (toneHz : UInt8 → Rat)
      (malloc : Malloc) (before after : SequenceRecord) (g : Generation), Backed before →
        g.Fails bitUsec stopUs toneHz malloc before after → Backed after ∧ Playable after := by
  intro h
  have hfail : (Generation.rtty (some ['E'.toUInt8]) (some ⟨45, 170, 1, false, false⟩)).Fails
      (fun _ => 0) (fun _ _ => 0) (fun _ => 0) (fun _ => none) oneSymbol
      { oneSymbol with symbols := none } := ⟨-2, by decide, rfl⟩
  have hsafe := h _ _ _ _ _ _ _ (.inr ⟨_, rfl, Nat.le_refl 1⟩) hfail
  exact absurd ((dropped_iff oneSymbol).mp hsafe) (by decide)

end MiniHF.Modes
