import MiniHF.Lib.Bits
import MiniHF.Modes.WsprProof
import MiniHF.Modes.CallsignProof

/-!
# Which WSPR messages are told apart

The number of a callsign is made for calls of one form: after padding, a digit in
the third place and letters or blanks in the last three. The check lets more
through. A slash has the value of a blank, a call of six characters loses the last
one when it gets a blank in front, and a character can be beyond the base of its
place, or below it.

The number does not wrap: a number below zero becomes one that is higher than any
other callsign's. So two callsigns share a number exactly when the digits of one
are those of the other with carries from place to place, and that is all that can
be confused, since grid and power are always told apart.
-/

namespace MiniHF.Modes.Wspr

open Buffer Ftx

/-! ## What is sent -/

/-- What the three checks let through. -/
structure Accepted (payload : WsprPayload) : Prop where
  callsign : validateCallsign payload.callsign.chars = true
  grid : validateGrid payload.grid.chars = true
  power : isValidPower payload.powerDbm = true

/-- The generator takes the payload, and these are its channel symbols: whatever its arrays hold, it
leaves a symbol with the tone of each in the caller's sequence. -/
def Sends (payload : WsprPayload) (channelSymbols : Vector UInt8 162) : Prop :=
  ∀ (toneHz : UInt8 → Rat) (stack : Stack) (malloc : Malloc) (mem : Vector TxSymbol 162)
    (seq : SequenceRecord), malloc 162 = some mem →
    generateWsprSequence toneHz stack malloc (some payload) seq = .ok (0, { seq with
      symbols := some (channelSymbols.toList.map (toneSymbol toneHz))
      totalSymbols := 162
      currentIndex := 0 })

/-- One message, up to letter case. -/
def SameMessage (p q : WsprPayload) : Prop :=
  p.callsign.chars.map toupper = q.callsign.chars.map toupper ∧
    p.grid.chars.map toupper = q.grid.chars.map toupper ∧ p.powerDbm = q.powerDbm

/-- A list item by item. -/
theorem range_map_getD (buf : Vector UInt8 162) :
    (List.range 162).map (fun i => buf.toList.getD i 0) = buf.toList := by
  apply List.ext_getElem
  · rw [List.length_map, List.length_range, Vector.length_toList]
  · intro i _ hi
    rw [List.getElem_map, List.getElem_range, List.getD_eq_getElem?_getD,
      List.getElem?_eq_getElem hi, Option.getD_some]

theorem fill_spec (toneHz : UInt8 → Rat) (channelSymbols : Vector UInt8 162)
    (before : Vector TxSymbol 162) :
    ∃ symbols, fillFrom toneHz channelSymbols before (List.range 162) = .ok symbols ∧
      symbols.toList = channelSymbols.toList.map (toneSymbol toneHz) := by
  obtain ⟨symbols, hok, hlist⟩ := @Scatter.loop_range _ _ (fillFrom toneHz channelSymbols)
    (fun i => toneSymbol toneHz (channelSymbols.toList.getD i 0)) (fun symbols => rfl)
    (fun symbols i is hi => by
      rw [fillFrom, load_eq channelSymbols hi, ok_bind, get_getD channelSymbols hi 0]) before
  have hmap := congrArg (List.map (toneSymbol toneHz)) (range_map_getD channelSymbols)
  rw [List.map_map] at hmap
  exact ⟨symbols, hok, hlist.trans hmap⟩

/-- Nothing that is accepted is refused by the encoder. -/
theorem Accepted.gridPower_nonneg {p : WsprPayload} (hp : Accepted p) :
    ¬ encodeGridPower p.grid.chars p.powerDbm < 0 := by
  have := (encodeGridPower_range (gridAccepted hp.grid) hp.power).1
  rw [Int32.lt_iff_toInt_lt]
  exact Int.not_lt.mpr this

/-- The encoder of an accepted payload gets to the channel code. -/
theorem Accepted.wsprEncode_eq {p : WsprPayload} (hp : Accepted p) (stack : Stack)
    (symbols : Vector UInt8 162) :
    wsprEncode stack p.callsign.chars p.grid.chars p.powerDbm symbols = (do
      let symbols ← channelCode stack (encodeCallsign p.callsign.chars)
        (encodeGridPower p.grid.chars p.powerDbm) symbols
      return (0, symbols)) := by
  unfold wsprEncode
  dsimp only
  rw [if_neg hp.gridPower_nonneg]

/-- **A payload that is not accepted is refused**, and the caller's sequence is left as it is. -/
theorem generate_refused {p : WsprPayload} (h : ¬ Accepted p) (toneHz : UInt8 → Rat)
    (stack : Stack) (malloc : Malloc) (seq : SequenceRecord) :
    generateWsprSequence toneHz stack malloc (some p) seq = .ok (-1, seq) := by
  unfold generateWsprSequence
  dsimp only
  by_cases hcall : validateCallsign p.callsign.chars = true
  · by_cases hgrid : validateGrid p.grid.chars = true
    · have hpower : ¬ isValidPower p.powerDbm = true := fun hpower => h ⟨hcall, hgrid, hpower⟩
      rw [hcall, hgrid, if_neg (by simp), if_neg (by simp), if_pos (by simpa using hpower)]
    · rw [hcall, if_neg (by simp), if_pos (by simpa using hgrid)]
  · rw [if_pos (by simpa using hcall)]

/-- **An accepted payload is sent**, with the symbols of its two numbers. -/
theorem sends_of_accepted {p : WsprPayload} (hp : Accepted p) {channelSymbols : Vector UInt8 162}
    (h : ∀ stack before, channelCode stack (encodeCallsign p.callsign.chars)
      (encodeGridPower p.grid.chars p.powerDbm) before = .ok channelSymbols) :
    Sends p channelSymbols := by
  intro toneHz stack malloc mem seq hmem
  obtain ⟨symbols, hfill, hlist⟩ := fill_spec toneHz channelSymbols mem
  have hcode : wsprEncode stack p.callsign.chars p.grid.chars p.powerDbm stack.channelSymbols
      = .ok (0, channelSymbols) := by
    rw [hp.wsprEncode_eq, h, ok_bind]
    rfl
  unfold generateWsprSequence
  dsimp only
  rw [hp.callsign, hp.grid, hp.power, if_neg (by decide), if_neg (by decide), if_neg (by decide),
    hcode, ok_bind]
  dsimp only
  rw [if_neg (by decide), hmem]
  dsimp only
  rw [hfill, ok_bind, hlist]
  rfl

/-! ## The number of a callsign -/

/-- The values of the padded characters, from the last place to the first. -/
def placeValues (callsign : List UInt8) : List Int :=
  let value := fun i => callsignCharValue (charAt (padCallsign callsign) i)
  [value 5 - 10, value 4 - 10, value 3 - 10, value 2, value 1, value 0]

/-- The bases of the places, from the last one. -/
def placeBases : List Int := [27, 27, 27, 10, 36]

/-- The digits of one callsign are those of the other, with carries. -/
def Overlap (s t : List UInt8) : Prop :=
  Numeral.Carries placeBases 0 (placeValues s) (placeValues t)

/-- The number of a callsign before it is a `uint32_t`. -/
def callsignNumber (callsign : List UInt8) : Int :=
  Numeral.lowFirst placeBases (placeValues callsign)

theorem overlap_iff (s t : List UInt8) : Overlap s t ↔ callsignNumber s = callsignNumber t := by
  unfold Overlap callsignNumber
  rw [Numeral.carries_iff rfl rfl, Int.add_zero]

theorem encodeCallsign_eq (s : List UInt8) :
    encodeCallsign s = UInt32.ofInt (callsignNumber s) := by
  unfold encodeCallsign callsignNumber placeValues placeBases
  dsimp only
  generalize callsignCharValue (charAt (padCallsign s) 0) = v₀
  generalize callsignCharValue (charAt (padCallsign s) 1) = v₁
  generalize callsignCharValue (charAt (padCallsign s) 2) = v₂
  generalize callsignCharValue (charAt (padCallsign s) 3) - 10 = v₃
  generalize callsignCharValue (charAt (padCallsign s) 4) - 10 = v₄
  generalize callsignCharValue (charAt (padCallsign s) 5) - 10 = v₅
  have hnum : Numeral.lowFirst [27, 27, 27, 10, 36] [v₅, v₄, v₃, v₂, v₁, v₀]
      = ((((v₀ * 36 + v₁) * 10 + v₂) * 27 + v₃) * 27 + v₄) * 27 + v₅ := by
    simp only [Numeral.lowFirst]
    omega
  rw [hnum]
  simp only [UInt32.ofInt_add, UInt32.ofInt_mul]
  rfl

theorem callsignCharValue_range (c : UInt8) :
    0 ≤ callsignCharValue c ∧ callsignCharValue c ≤ 36 := by
  unfold callsignCharValue
  split
  · next h =>
      have : _ ∧ _ ≤ (9 : Int) := charDiff_range h
      omega
  split
  · next h =>
      have : _ ∧ _ ≤ (25 : Int) := charDiff_range h
      omega
  · decide

/-- All numbers are in a range of less than 28 bits. -/
theorem callsignNumber_range (s : List UInt8) :
    -7570 ≤ callsignNumber s ∧ callsignNumber s ≤ 262926324 := by
  have h₀ := callsignCharValue_range (charAt (padCallsign s) 0)
  have h₁ := callsignCharValue_range (charAt (padCallsign s) 1)
  have h₂ := callsignCharValue_range (charAt (padCallsign s) 2)
  have h₃ := callsignCharValue_range (charAt (padCallsign s) 3)
  have h₄ := callsignCharValue_range (charAt (padCallsign s) 4)
  have h₅ := callsignCharValue_range (charAt (padCallsign s) 5)
  unfold callsignNumber placeValues placeBases
  simp only [Numeral.lowFirst]
  omega

/-- **What is kept of the numbers tells them apart.** -/
theorem callsign_bits_iff (s t : List UInt8) :
    (encodeCallsign s).toNat % 268435456 = (encodeCallsign t).toNat % 268435456
      ↔ Overlap s t := by
  have hs := callsignNumber_range s
  have ht := callsignNumber_range t
  have hws := Bits.toNat_ofInt (callsignNumber s)
  have hwt := Bits.toNat_ofInt (callsignNumber t)
  rw [← encodeCallsign_eq] at hws hwt
  rw [overlap_iff]
  omega

/-! ## Messages that share their symbols -/

theorem byte_congr {n n' : UInt32} {k d : Nat} (hk : k < 32) (hd : 1 <<< k = d)
    (h : n.toNat / d % 256 = n'.toNat / d % 256) :
    ((n >>> UInt32.ofNat k) &&& 0xFF).toUInt8 = ((n' >>> UInt32.ofNat k) &&& 0xFF).toUInt8 := by
  apply UInt8.toNat_inj.mp
  rw [byteAt n hk, byteAt n' hk, hd, h]

/-- Only 28 bits of the number are packed. -/
theorem packMessage_congr {n n' : UInt32} (h : n.toNat % 268435456 = n'.toNat % 268435456)
    (m : Int32) : packMessage n m = packMessage n' m := by
  have h₀ : ((n >>> 20) &&& 0xFF).toUInt8 = ((n' >>> 20) &&& 0xFF).toUInt8 :=
    @byte_congr n n' 20 1048576 (by decide) rfl (by omega)
  have h₁ : ((n >>> 12) &&& 0xFF).toUInt8 = ((n' >>> 12) &&& 0xFF).toUInt8 :=
    @byte_congr n n' 12 4096 (by decide) rfl (by omega)
  have h₂ : ((n >>> 4) &&& 0xFF).toUInt8 = ((n' >>> 4) &&& 0xFF).toUInt8 :=
    @byte_congr n n' 4 16 (by decide) rfl (by omega)
  have hlow : n &&& 0x0F = n' &&& 0x0F := by
    apply UInt32.toNat_inj.mp
    have hmask : (0x0F : UInt32).toNat = 2 ^ 4 - 1 := rfl
    rw [UInt32.toNat_and, UInt32.toNat_and, hmask, Nat.and_two_pow_sub_one_eq_mod,
      Nat.and_two_pow_sub_one_eq_mod]
    omega
  apply Vector.toList_inj.mp
  rw [packMessage_toList, packMessage_toList, h₀, h₁, h₂, hlow]

section Grids

variable {grid grid' : List UInt8} {power : Int}

/-- Letter case does not count. -/
theorem locNumber_congr (h : GridAccepted grid) (h' : GridAccepted grid')
    (heq : grid.map toupper = grid'.map toupper) : locNumber grid = locNumber grid' := by
  rw [h.grid_eq, h'.grid_eq] at heq
  simp only [List.map_cons, List.map_nil, List.cons.injEq, and_true] at heq
  obtain ⟨e₀, e₁, e₂, e₃⟩ := heq
  have hdigit : ∀ {c : UInt8}, between '0' '9' c = true → toupper c = c :=
    fun hc => upper_digit hc
  rw [hdigit h.third, hdigit h'.third] at e₂
  rw [hdigit h.fourth, hdigit h'.fourth] at e₃
  unfold locNumber
  rw [e₀, e₁, e₂, e₃]

theorem encodeGridPower_congr (h : GridAccepted grid) (h' : GridAccepted grid')
    (hpower : isValidPower power = true) (heq : grid.map toupper = grid'.map toupper) :
    encodeGridPower grid power = encodeGridPower grid' power := by
  apply Int32.toInt_inj.mp
  rw [encodeGridPower_toInt h hpower, encodeGridPower_toInt h' hpower, locNumber_congr h h' heq]

end Grids

/-- The messages that are confused: they differ in the callsign only, and the callsigns overlap. -/
structure Confused (p q : WsprPayload) : Prop where
  callsign : p.callsign.chars.map toupper ≠ q.callsign.chars.map toupper
  overlap : Overlap p.callsign.chars q.callsign.chars
  grid : p.grid.chars.map toupper = q.grid.chars.map toupper
  power : p.powerDbm = q.powerDbm

/-- **Which messages are told apart.** Two accepted messages with the same channel symbols are one
message, unless they are of those that are confused. -/
theorem messages_told_apart {p q : WsprPayload} (hp : Accepted p) (hq : Accepted q) :
    ∃ s t : Vector UInt8 162, Sends p s ∧ Sends q t ∧
      ((s = t → SameMessage p q) ↔ ¬ Confused p q) := by
  have hgp := gridAccepted hp.grid
  have hgq := gridAccepted hq.grid
  obtain ⟨st, hst⟩ := channelCode_spec (encodeCallsign p.callsign.chars)
    (encodeGridPower p.grid.chars p.powerDbm)
  obtain ⟨st', hst'⟩ := channelCode_spec (encodeCallsign q.callsign.chars)
    (encodeGridPower q.grid.chars q.powerDbm)
  refine ⟨st.symbols, st'.symbols, sends_of_accepted hp hst, sends_of_accepted hq hst', ?_, ?_⟩
  · -- the confused ones have the same symbols
    intro hsame hconf
    have hpack := packMessage_congr ((callsign_bits_iff _ _).mpr hconf.overlap)
      (encodeGridPower p.grid.chars p.powerDbm)
    have hm : encodeGridPower p.grid.chars p.powerDbm = encodeGridPower q.grid.chars q.powerDbm := by
      rw [← hconf.power]
      exact encodeGridPower_congr hgp hgq hp.power hconf.grid
    have hcode : ∀ stack before, channelCode stack (encodeCallsign p.callsign.chars)
        (encodeGridPower p.grid.chars p.powerDbm) before
          = channelCode stack (encodeCallsign q.callsign.chars)
            (encodeGridPower q.grid.chars q.powerDbm) before := by
      intro stack before
      unfold channelCode
      dsimp only
      rw [hpack, hm]
    let array : Vector UInt8 162 := Vector.replicate 162 0
    have heq := hcode ⟨array, array, array⟩ array
    rw [hst, hst'] at heq
    exact hconf.callsign (hsame (Except.ok.inj heq)).1
  · -- the others are read back
    intro hconf heq
    obtain ⟨hnum, hm⟩ := packMessage_inj (encodeGridPower_range hgp hp.power)
      (encodeGridPower_range hgq hq.power) (st.inputBits_eq st' heq)
    obtain ⟨hgrid, hpower⟩ := encodeGridPower_inj hgp hgq hp.power hq.power hm
    have hover := (callsign_bits_iff _ _).mp hnum
    refine ⟨?_, hgrid, hpower⟩
    exact Decidable.byContradiction (fun hcall => hconf ⟨hcall, hover, hgrid, hpower⟩)

/-! ## Callsigns of the form the number is made for -/

/-- The blank that goes in front. -/
def lead (callsign : List UInt8) : List UInt8 :=
  if callsign.length ≥ 2 && isalpha (charAt callsign 0) && isdigit (charAt callsign 1) then [space]
  else []

/-- A callsign of letters and digits that pads to six places without losing a character, with a
letter or a digit second, a digit third and no digits behind it. -/
structure Standard (callsign : List UInt8) : Prop where
  fits : (lead callsign).length + callsign.length ≤ 6
  alnum : ∀ c ∈ callsign, isalnum c = true
  second : callsignCharValue (charAt (padCallsign callsign) 1) < 36
  third : callsignCharValue (charAt (padCallsign callsign) 2) < 10
  suffix : ∀ i ∈ [3, 4, 5], 10 ≤ callsignCharValue (charAt (padCallsign callsign) i)

/-- The characters in the order of their values. -/
def valueChars : List UInt8 := literal "0123456789ABCDEFGHIJKLMNOPQRSTUVWXYZ "

theorem value_inj {c d : UInt8} (hc : c ∈ valueChars) (hd : d ∈ valueChars)
    (h : callsignCharValue c = callsignCharValue d) : c = d := by
  have hall : (valueChars.all fun c => charAt valueChars (callsignCharValue c).toNat == c) = true := by
    decide +kernel
  have hback : ∀ c ∈ valueChars, charAt valueChars (callsignCharValue c).toNat = c := by
    intro c hc
    simpa using List.all_eq_true.mp hall c hc
  rw [← hback c hc, ← hback d hd, h]

/-- A letter is folded to a capital. -/
theorem upper_letter {c : UInt8} (h : isalpha c = true) : between 'A' 'Z' (upper c) = true := by
  unfold isalpha at h
  unfold upper
  rcases Bool.or_eq_true_iff.mp h with hcapital | hsmall
  · have hb : 65 ≤ c.toNat ∧ c.toNat ≤ 90 := between_bounds hcapital
    rw [@between_eq_false 'a' 'z' c (Or.inl (Nat.lt_of_le_of_lt hb.2 (by decide)))]
    exact hcapital
  · have hb : 97 ≤ c.toNat ∧ c.toNat ≤ 122 := between_bounds hsmall
    have hle : (32 : UInt8) ≤ c := UInt8.le_iff_toNat_le.mpr (Nat.le_trans (by decide) hb.1)
    have hsub : (c - 32).toNat = c.toNat - 32 := UInt8.toNat_sub_of_le _ _ hle
    have hA : 'A'.toUInt8.toNat = 65 := rfl
    have hZ : 'Z'.toUInt8.toNat = 90 := rfl
    rw [if_pos hsmall]
    unfold between
    rw [Bool.and_eq_true, decide_eq_true_eq, decide_eq_true_eq, UInt8.le_iff_toNat_le,
      UInt8.le_iff_toNat_le, hsub]
    omega

theorem toupper_mem {c : UInt8} (h : isalnum c = true) : toupper c ∈ valueChars := by
  rcases Bool.or_eq_true_iff.mp h with hletter | hdigit
  · exact mem_of_upper (by decide) (upper_letter hletter)
  · have hsame : toupper c = c := upper_digit hdigit
    rw [hsame]
    exact mem_of_digit (by decide) hdigit

section Standard

variable {s t : List UInt8}

theorem padCallsign_eq (s : List UInt8) : padCallsign s
    = List.rightpad 6 space (lead s ++ (s.map toupper).take (6 - (lead s).length)) := rfl

theorem padCallsign_length (s : List UInt8) : (padCallsign s).length = 6 := by
  have hlead : (lead s).length ≤ 1 := by
    unfold lead
    split <;> decide
  rw [padCallsign_eq, List.length_rightpad, List.length_append, List.length_take]
  omega

theorem lead_blank : ∀ c ∈ lead s, c = space := by
  intro c hc
  unfold lead at hc
  split at hc
  · exact List.mem_singleton.mp hc
  · cases hc

theorem Standard.pad_mem (h : Standard s) : ∀ c ∈ padCallsign s, c ∈ valueChars := by
  have hblank : space ∈ valueChars := by decide
  intro c hc
  rw [padCallsign_eq, List.rightpad, List.mem_append, List.mem_append] at hc
  rcases hc with (hc | hc) | hc
  · rw [lead_blank c hc]
    exact hblank
  · obtain ⟨d, hd, rfl⟩ := List.mem_map.mp (List.mem_of_mem_take hc)
    exact toupper_mem (h.alnum d hd)
  · rw [List.eq_of_mem_replicate hc]
    exact hblank

/-- Without its blanks, the padded callsign is the callsign. -/
theorem Standard.pad_filter (h : Standard s) :
    (padCallsign s).filter (· != space) = s.map toupper := by
  have hall : (s.map toupper).take (6 - (lead s).length) = s.map toupper :=
    List.take_of_length_le (by
      have := h.fits
      rw [List.length_map]
      omega)
  have hown : (s.map toupper).filter (· != space) = s.map toupper := by
    rw [List.filter_eq_self]
    intro c hc
    obtain ⟨d, hd, rfl⟩ := List.mem_map.mp hc
    have hd' : d ≠ space := by
      rintro rfl
      exact absurd (h.alnum space hd) (by decide)
    have hne : toupper d ≠ space := upper_ne_space hd'
    simpa using hne
  have hlead : (lead s).filter (· != space) = [] := by
    rw [List.filter_eq_nil_iff]
    intro c hc
    rw [lead_blank c hc]
    decide
  rw [padCallsign_eq, hall, List.rightpad, List.filter_append, List.filter_append, hlead, hown,
    List.filter_replicate_of_neg (by decide), List.append_nil, List.nil_append]

theorem Standard.within (h : Standard s) : Numeral.Within placeBases (placeValues s) := by
  have h₁ := callsignCharValue_range (charAt (padCallsign s) 1)
  have h₂ := callsignCharValue_range (charAt (padCallsign s) 2)
  have h₃ := callsignCharValue_range (charAt (padCallsign s) 3)
  have h₄ := callsignCharValue_range (charAt (padCallsign s) 4)
  have h₅ := callsignCharValue_range (charAt (padCallsign s) 5)
  have hsecond := h.second
  have hthird := h.third
  have hfourth := h.suffix 3 (by decide)
  have hfifth := h.suffix 4 (by decide)
  have hsixth := h.suffix 5 (by decide)
  unfold placeBases placeValues
  dsimp only
  exact ⟨by omega, by omega, by omega, by omega, by omega, trivial⟩

/-- **Callsigns of this form are never confused.** -/
theorem standard_apart (hs : Standard s) (ht : Standard t) (h : Overlap s t) :
    s.map toupper = t.map toupper := by
  have hvalues := Numeral.carries_within h hs.within ht.within
  unfold placeValues at hvalues
  simp only [List.cons.injEq, and_true] at hvalues
  obtain ⟨v₅, v₄, v₃, v₂, v₁, v₀⟩ := hvalues
  have hchar : ∀ i < 6, callsignCharValue (charAt (padCallsign s) i)
      = callsignCharValue (charAt (padCallsign t) i) →
      charAt (padCallsign s) i = charAt (padCallsign t) i := by
    intro i hi heq
    have hmem : ∀ {r : List UInt8}, Standard r → charAt (padCallsign r) i ∈ valueChars := by
      intro r hr
      have hlt : i < (padCallsign r).length := by rwa [padCallsign_length]
      apply hr.pad_mem
      unfold charAt
      rw [List.getD_eq_getElem?_getD, List.getElem?_eq_getElem hlt, Option.getD_some]
      exact List.getElem_mem hlt
    exact value_inj (hmem hs) (hmem ht) heq
  have hpad : padCallsign s = padCallsign t := by
    apply charAt_ext (by rw [padCallsign_length, padCallsign_length])
    intro i hi
    rw [padCallsign_length] at hi
    apply hchar i hi
    have hplace : i = 0 ∨ i = 1 ∨ i = 2 ∨ i = 3 ∨ i = 4 ∨ i = 5 := by omega
    rcases hplace with rfl | rfl | rfl | rfl | rfl | rfl
    · exact v₀
    · exact v₁
    · exact v₂
    · exact (Int.sub_left_inj 10).mp v₃
    · exact (Int.sub_left_inj 10).mp v₄
    · exact (Int.sub_left_inj 10).mp v₅
  rw [← hs.pad_filter, ← ht.pad_filter, hpad]

end Standard

/-- A message of a callsign, in FN42 with 37 dBm. -/
def fromFn42 (callsign : CString 6) : WsprPayload :=
  ⟨callsign, CString.ofLiteral "FN42" (by decide) (by decide), 37⟩

def k1abc : CString 6 := CString.ofLiteral "K1ABC" (by decide) (by decide)

/-- K1ABC with a slash behind: it gets a blank in front, which leaves no room for the slash. -/
def k1abcSlash : CString 6 := CString.ofLiteral "K1ABC/" (by decide) (by decide)

theorem messages_told_apart_w1aw :
    ∃ s t : Vector UInt8 162, Sends (fromFn42 k1abc) s ∧
      Sends (fromFn42 (CString.ofLiteral "W1AW" (by decide) (by decide))) t ∧ s ≠ t := by
  obtain ⟨s, t, hs, ht, hiff⟩ := @messages_told_apart (fromFn42 k1abc)
    (fromFn42 (CString.ofLiteral "W1AW" (by decide) (by decide)))
    ⟨by decide, by decide, by decide⟩ ⟨by decide, by decide, by decide⟩
  have hapart : ¬ Confused (fromFn42 k1abc)
      (fromFn42 (CString.ofLiteral "W1AW" (by decide) (by decide))) :=
    fun hconf => absurd ((overlap_iff _ _).mp hconf.overlap) (by decide)
  exact ⟨s, t, hs, ht, fun heq => absurd (hiff.mpr hapart heq).1 (by decide)⟩

/-- **Not all messages are told apart**: K1ABC and K1ABC/ have the same symbols. -/
theorem messages_shared :
    ¬ ∀ (p q : WsprPayload) (s t : Vector UInt8 162), Accepted p → Accepted q →
      Sends p s → Sends q t → s = t → SameMessage p q := by
  intro hall
  have hp : Accepted (fromFn42 k1abc) := ⟨by decide, by decide, by decide⟩
  have hq : Accepted (fromFn42 k1abcSlash) := ⟨by decide, by decide, by decide⟩
  obtain ⟨st, hst⟩ := channelCode_spec (encodeCallsign (fromFn42 k1abc).callsign.chars)
    (encodeGridPower (fromFn42 k1abc).grid.chars (fromFn42 k1abc).powerDbm)
  have hnum : encodeCallsign (fromFn42 k1abcSlash).callsign.chars
      = encodeCallsign (fromFn42 k1abc).callsign.chars := by decide
  have hsame := hall _ _ st.symbols st.symbols hp hq (sends_of_accepted hp hst)
    (sends_of_accepted hq (by rw [hnum]; exact hst)) rfl
  exact absurd hsame.1 (by decide)

end MiniHF.Modes.Wspr
