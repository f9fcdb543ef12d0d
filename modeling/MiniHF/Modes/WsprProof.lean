import MiniHF.Modes.Wspr
import MiniHF.Modes.EncoderProof
import MiniHF.Lib.Blocks
import MiniHF.Lib.Scatter
import MiniHF.Lib.Trellis

/-!
# The 162 symbols of a WSPR message

Every stage of the coding can be undone. The two polynomials take in the bit that
came last, so that the outputs tell the next input bit from the register before it:
the convolution is an encoder whose inputs can be read back. The places
`interleave` stores to are all places of the array, each once. The sync vector is
added to twice a bit, and halving takes it off. What is left is arithmetic: the
bytes of the packed message hold the 50 bits of the two numbers, and the number of
grid and power is one of mixed radix.
-/

namespace MiniHF.Modes.Wspr

open Buffer Ftx

/-! ## Parity -/

/-- One step of the folding in `parity`. -/
def fold (k v : UInt32) : UInt32 := v ^^^ (v >>> k)

theorem fold_xor (k a b : UInt32) : fold k (a ^^^ b) = fold k a ^^^ fold k b := by
  unfold fold
  rw [UInt32.shiftRight_xor]
  ac_rfl

theorem xor_and (a b c : UInt32) : (a ^^^ b) &&& c = (a &&& c) ^^^ (b &&& c) := by
  apply UInt32.toBitVec_inj.mp
  rw [UInt32.toBitVec_and, UInt32.toBitVec_xor, UInt32.toBitVec_xor, UInt32.toBitVec_and,
    UInt32.toBitVec_and]
  apply BitVec.eq_of_getLsbD_eq
  intro i _
  rw [BitVec.getLsbD_and, BitVec.getLsbD_xor, BitVec.getLsbD_xor, BitVec.getLsbD_and,
    BitVec.getLsbD_and, Bool.and_xor_distrib_right]

theorem parity_eq (v : UInt32) :
    parity v = (fold 1 (fold 2 (fold 4 (fold 8 (fold 16 v)))) &&& 1).toUInt8 := rfl

/-- Parity is linear. -/
theorem parity_xor (a b : UInt32) : parity (a ^^^ b) = parity a ^^^ parity b := by
  rw [parity_eq, fold_xor, fold_xor, fold_xor, fold_xor, fold_xor, xor_and, UInt32.toUInt8_xor]
  rfl

theorem parity_lt (v : UInt32) : (parity v).toNat < 2 := by
  have h1 : (1 : UInt32).toNat = 1 := rfl
  rw [parity_eq, UInt32.toNat_toUInt8, UInt32.toNat_and, h1, Nat.and_one_is_mod]
  omega

/-! ## The convolution -/

/-- The convolution as an encoder with a register. -/
def code : Trellis.Encoder UInt32 Bool (UInt8 × UInt8) where
  shift reg b := (reg <<< 1) ||| b.toUInt32
  out reg := (parity (reg &&& 0xF2D05351), parity (reg &&& 0xE4613C47))

theorem or_one (reg : UInt32) :
    (reg <<< 1) ||| true.toUInt32 = ((reg <<< 1) ||| false.toUInt32) ^^^ 1 := by
  apply UInt32.toBitVec_inj.mp
  rw [UInt32.toBitVec_or, UInt32.toBitVec_xor, UInt32.toBitVec_or, UInt32.toBitVec_shiftLeft]
  apply BitVec.eq_of_getLsbD_eq
  intro i _
  cases i with
  | zero => simp
  | succ i => simp

/-- A polynomial that takes in the last bit gives other parities for the two input bits. -/
theorem parity_shift {poly : UInt32} (hpoly : 1 &&& poly = 1) (reg : UInt32) :
    parity (code.shift reg true &&& poly) ≠ parity (code.shift reg false &&& poly) := by
  have hone : parity (code.shift reg true &&& poly)
      = parity (code.shift reg false &&& poly) ^^^ 1 := by
    unfold code
    dsimp only
    rw [or_one, xor_and, parity_xor, hpoly]
    rfl
  intro heq
  rw [hone] at heq
  generalize parity (code.shift reg false &&& poly) = p at heq
  have hzero : (p ^^^ 1) ^^^ p = 0 := by rw [heq, UInt8.xor_self]
  rw [UInt8.xor_comm p 1, UInt8.xor_assoc, UInt8.xor_self, UInt8.xor_zero] at hzero
  cases hzero

/-- **The outputs tell the input bits apart.** -/
theorem code_distinguishes : code.Distinguishes := by
  intro reg b c h
  have hfirst : parity (code.shift reg b &&& 0xF2D05351) = parity (code.shift reg c &&& 0xF2D05351) :=
    congrArg Prod.fst h
  have hdiff := @parity_shift 0xF2D05351 (by decide) reg
  cases b <;> cases c
  · rfl
  · exact absurd hfirst.symm hdiff
  · exact absurd hfirst hdiff
  · rfl

/-- The two outputs of an input bit, as they are stored. -/
def both (p : UInt8 × UInt8) : List UInt8 := [p.1, p.2]

theorem both_length (p : UInt8 × UInt8) : (both p).length = 2 := rfl

/-- What the convolution stores for input bits. -/
def outputs (reg : UInt32) (bits : List Bool) : List UInt8 := (code.encode reg bits).flatMap both

theorem outputs_length (reg : UInt32) (bits : List Bool) :
    (outputs reg bits).length = bits.length * 2 := by
  unfold outputs
  rw [Blocks.flatMap_length both_length, Trellis.encode_length]

theorem outputs_inj {reg : UInt32} {bits bits' : List Bool} (h : outputs reg bits = outputs reg bits') :
    bits = bits' := by
  have hboth : ∀ p q, both p = both q → p = q := by
    rintro ⟨a, b⟩ ⟨c, d⟩ heq
    cases heq
    rfl
  exact Trellis.encode_inj code_distinguishes
    (Blocks.flatMap_inj both_length (by decide) hboth h)

/-- Outputs are bits. -/
theorem outputs_lt {reg : UInt32} {bits : List Bool} : ∀ v ∈ outputs reg bits, v.toNat < 2 := by
  induction bits generalizing reg with
  | nil =>
      intro v hv
      cases hv
  | cons b bits ih =>
      intro v hv
      have hcons : outputs reg (b :: bits) = parity (code.shift reg b &&& 0xF2D05351)
          :: parity (code.shift reg b &&& 0xE4613C47) :: outputs (code.shift reg b) bits := rfl
      rw [hcons] at hv
      rcases List.mem_cons.mp hv with rfl | hv
      · exact parity_lt _
      rcases List.mem_cons.mp hv with rfl | hv
      · exact parity_lt _
      · exact ih v hv

/-- An input bit as the code takes it out of a byte. -/
theorem inputBit_eq (byte : UInt8) {j : Nat} (hj : j < 8) :
    ((byte >>> UInt8.ofNat j) &&& 1).toUInt32 = (byte.toNat.testBit j).toUInt32 := by
  have hmod : (UInt8.ofNat j).toNat % 8 = j := by
    rw [UInt8.toNat_ofNat']
    omega
  have h1 : (1 : UInt8).toNat = 1 := rfl
  apply UInt32.toNat_inj.mp
  rw [UInt8.toNat_toUInt32, UInt8.toNat_and, UInt8.toNat_shiftRight, hmod, h1, Nat.and_one_is_mod,
    Nat.testBit_eq_decide_div_mod_eq, ← Nat.shiftRight_eq_div_pow]
  rcases Nat.mod_two_eq_zero_or_one (byte.toNat >>> j) with h | h
  · rw [h]
    rfl
  · rw [h]
    rfl

/-- The bits of a byte, from the high end. -/
def bitsOf (byte : UInt8) : List Bool := [7, 6, 5, 4, 3, 2, 1, 0].map byte.toNat.testBit

theorem bitsOf_inj {a b : UInt8} (h : bitsOf a = bitsOf b) : a = b := by
  have hbits : ∀ j ∈ [7, 6, 5, 4, 3, 2, 1, 0], a.toNat.testBit j = b.toNat.testBit j :=
    List.map_inj_left.mp h
  apply UInt8.toNat_inj.mp
  apply Nat.eq_of_testBit_eq
  intro j
  by_cases hj : j < 8
  · exact hbits j (by simp; omega)
  · have hhigh : ∀ c : UInt8, c.toNat.testBit j = false := by
      intro c
      have hpow := Nat.pow_le_pow_right (show 0 < 2 by omega) (show 8 ≤ j by omega)
      exact Nat.testBit_lt_two_pow (Nat.lt_of_lt_of_le c.toNat_lt hpow)
    rw [hhigh, hhigh]

theorem bitsOf_length (byte : UInt8) : (bitsOf byte).length = 8 := rfl

theorem outputs_append (reg : UInt32) (bits bits' : List Bool) :
    outputs reg (bits ++ bits') = outputs reg bits ++ outputs (code.final reg bits) bits' := by
  unfold outputs
  rw [Trellis.encode_append, List.flatMap_append]

/-- One turn of the inner loop. -/
theorem convolveByte_cons {byte : UInt8} {j : Nat} (hj : j < 8) (reg : UInt32)
    (convolved : Vector UInt8 162) {outIdx : Nat} (hroom : outIdx < 162) (js : List Nat) :
    convolveByte byte reg convolved outIdx (j :: js) = (do
      let shiftReg := code.shift reg (byte.toNat.testBit j)
      let convolved ← store convolved outIdx (parity (shiftReg &&& 0xF2D05351))
      let convolved ← store convolved (outIdx + 1) (parity (shiftReg &&& 0xE4613C47))
      convolveByte byte shiftReg convolved (outIdx + 2) js) := by
  rw [convolveByte, if_pos hroom]
  dsimp only
  rw [inputBit_eq byte hj]
  rfl

/-- The inner loop writes the outputs of the bits it reads, and stops where the array ends: with `k`
bits coded so far there is room for `81 - k` more. -/
theorem convolveByte_spec {byte : UInt8} {js : List Nat} (hjs : ∀ j ∈ js, j < 8) {reg : UInt32}
    {convolved : Vector UInt8 162} {l : List UInt8} {k : Nat} (h : Written convolved l)
    (hlen : l.length = k * 2) {bits : List Bool}
    (hbits : bits = (js.map byte.toNat.testBit).take (81 - k)) :
    ∃ convolved', convolveByte byte reg convolved l.length js
        = .ok (code.final reg bits, convolved', (l ++ outputs reg bits).length) ∧
      Written convolved' (l ++ outputs reg bits) := by
  induction js generalizing reg convolved l k bits with
  | nil =>
      have hnil : bits = [] := by rw [hbits, List.map_nil, List.take_nil]
      subst hnil
      have hend : l ++ outputs reg [] = l := List.append_nil l
      rw [hend]
      exact ⟨convolved, rfl, h⟩
  | cons j js ih =>
      by_cases hroom : l.length < 162
      · have hk : 81 - k = (81 - (k + 1)) + 1 := by omega
        rw [hk, List.map_cons, List.take_succ_cons] at hbits
        generalize hrest : (js.map byte.toNat.testBit).take (81 - (k + 1)) = rest at hbits
        subst hbits
        rw [convolveByte_cons (hjs j (by simp)) reg convolved hroom]
        dsimp only
        generalize byte.toNat.testBit j = b
        obtain ⟨arr₁, arr₂, h₁, h₂, hw₂⟩ := store_snoc_two (parity (code.shift reg b &&& 0xF2D05351))
          (parity (code.shift reg b &&& 0xE4613C47)) h (by omega)
        rw [h₁, ok_bind, h₂, ok_bind]
        generalize hpair : [parity (code.shift reg b &&& 0xF2D05351),
          parity (code.shift reg b &&& 0xE4613C47)] = pair at hw₂
        have htwo : (l ++ pair).length = l.length + 2 := by
          rw [← hpair, List.length_append]
          rfl
        obtain ⟨arr₃, h₃, hw₃⟩ := ih (fun i hi => hjs i (by simp [hi])) hw₂
          (show _ = (k + 1) * 2 by omega) hrest.symm
        have hout : l ++ outputs reg (b :: rest) = l ++ pair ++ outputs (code.shift reg b) rest := by
          rw [← hpair, List.append_assoc]
          rfl
        rw [htwo] at h₃
        rw [h₃, hout]
        exact ⟨arr₃, rfl, hw₃⟩
      · have hnil : bits = [] := by
          rw [hbits, show 81 - k = 0 by omega, List.take_zero]
        subst hnil
        have hend : l ++ outputs reg [] = l := List.append_nil l
        rw [convolveByte, if_neg hroom, hend]
        exact ⟨convolved, rfl, h⟩

/-- The outer loop. -/
theorem convolveBytes_spec {packed : List UInt8} {reg : UInt32} {convolved : Vector UInt8 162}
    {l : List UInt8} {k : Nat} (h : Written convolved l) (hlen : l.length = k * 2)
    {bits : List Bool} (hbits : bits = (packed.flatMap bitsOf).take (81 - k)) :
    ∃ convolved', convolveBytes reg convolved l.length packed = .ok convolved' ∧
      Written convolved' (l ++ outputs reg bits) := by
  induction packed generalizing reg convolved l k bits with
  | nil =>
      have hnil : bits = [] := by rw [hbits, List.flatMap_nil, List.take_nil]
      subst hnil
      exact ⟨convolved, rfl, by rw [show l ++ outputs reg [] = l from List.append_nil l]; exact h⟩
  | cons byte packed ih =>
      rw [convolveBytes]
      by_cases hroom : l.length < 162
      · obtain ⟨arr₁, h₁, hw₁⟩ := @convolveByte_spec byte [7, 6, 5, 4, 3, 2, 1, 0] (by decide) reg
          convolved l k h hlen _ rfl
        have hown : ([7, 6, 5, 4, 3, 2, 1, 0].map byte.toNat.testBit).take (81 - k)
            = (bitsOf byte).take (81 - k) := rfl
        rw [hown] at h₁ hw₁
        generalize hfirst : (bitsOf byte).take (81 - k) = first at h₁ hw₁
        have hcount : first.length = min (81 - k) 8 := by
          rw [← hfirst, List.length_take, bitsOf_length]
        obtain ⟨arr₂, h₂, hw₂⟩ := @ih (code.final reg first) arr₁ _ (k + first.length) hw₁ (by
            rw [List.length_append, outputs_length]
            omega) _ rfl
        refine ⟨arr₂, by rw [if_pos hroom, h₁, ok_bind]; exact h₂, ?_⟩
        have hsplit : bits = first ++ (packed.flatMap bitsOf).take (81 - (k + first.length)) := by
          rw [hbits, List.flatMap_cons, List.take_append, hfirst, bitsOf_length]
          congr 2
          omega
        rw [hsplit, outputs_append, ← List.append_assoc]
        exact hw₂
      · have hnil : bits = [] := by
          rw [hbits, show 81 - k = 0 by omega, List.take_zero]
        subst hnil
        rw [if_neg hroom, show l ++ outputs reg [] = l from List.append_nil l]
        exact ⟨convolved, rfl, h⟩

/-- The input bits of a packed message. -/
def inputBits (packed : Vector UInt8 11) : List Bool := (packed.toList.flatMap bitsOf).take 81

theorem inputBits_length (packed : Vector UInt8 11) : (inputBits packed).length = 81 := by
  rw [inputBits, List.length_take, Blocks.flatMap_length bitsOf_length, Vector.length_toList]
  rfl

/-- **All 162 places are written**, with the outputs of the input bits. -/
theorem convolve_spec (packed : Vector UInt8 11) (before : Vector UInt8 162) :
    ∃ convolved, convolve packed before = .ok convolved ∧
      convolved.toList = outputs 0 (inputBits packed) := by
  obtain ⟨convolved, hok, hw⟩ := @convolveBytes_spec packed.toList 0 before [] 0 (written_nil before)
    rfl _ rfl
  refine ⟨convolved, hok, ?_⟩
  have hlen : (outputs 0 (inputBits packed)).length = 162 := by
    rw [outputs_length, inputBits_length]
  exact hw.full hlen

/-! ## The places -/

/-- Where `interleave` stores to for some of its `j`. -/
def placesOf (js : List Nat) : List Nat :=
  (js.map (fun j => (bitReverse8 (UInt8.ofNat j)).toNat)).filter (· < 162)

/-- Where `interleave` stores to. -/
def places : List Nat := placesOf (List.range 256)

/-- Reversing the bits of a byte twice gives it back. -/
theorem bitReverse8_twice (v : UInt8) : bitReverse8 (bitReverse8 v) = v := by
  have hall : ∀ k : Fin 256, bitReverse8 (bitReverse8 (UInt8.ofNat k.val)) = UInt8.ofNat k.val := by
    decide +kernel
  have hv := hall ⟨v.toNat, v.toNat_lt⟩
  rwa [UInt8.ofNat_toNat] at hv

theorem places_length : places.length = 162 := by decide +kernel

theorem places_lt : ∀ i ∈ places, i < 162 := by
  intro i hi
  unfold places placesOf at hi
  rw [List.mem_filter] at hi
  exact of_decide_eq_true hi.2

/-- No place is used twice. -/
theorem places_nodup : places.Nodup := by
  unfold places placesOf
  apply List.Pairwise.filter
  rw [List.pairwise_map]
  refine List.Pairwise.imp_of_mem ?_ List.nodup_range
  intro j k hj hk hne heq
  rw [List.mem_range] at hj hk
  have hbyte := congrArg bitReverse8 (UInt8.toNat_inj.mp heq)
  rw [bitReverse8_twice, bitReverse8_twice] at hbyte
  have hnat := congrArg UInt8.toNat hbyte
  rw [UInt8.toNat_ofNat', UInt8.toNat_ofNat'] at hnat
  exact hne (by omega)

/-- No place is left out. -/
theorem places_all : ∀ i < 162, i ∈ places := by
  intro i hi
  have hbyte : (UInt8.ofNat i).toNat = i := by
    rw [UInt8.toNat_ofNat']
    omega
  unfold places placesOf
  rw [List.mem_filter, List.mem_map]
  refine ⟨⟨(bitReverse8 (UInt8.ofNat i)).toNat, ?_, ?_⟩, decide_eq_true hi⟩
  · rw [List.mem_range]
    exact UInt8.toNat_lt _
  · rw [UInt8.ofNat_toNat, bitReverse8_twice, hbyte]

/-- The loop stores what is left of the source to the places that are left. -/
theorem interleaveFrom_eq {convolved : Vector UInt8 162} (js : List Nat)
    (interleaved : Vector UInt8 162) (src : Nat) :
    interleaveFrom convolved interleaved src js
      = Scatter.scatter interleaved ((placesOf js).zip (convolved.toList.drop src)) := by
  induction js generalizing interleaved src with
  | nil => rfl
  | cons j js ih =>
      rw [interleaveFrom]
      by_cases hsrc : src < 162
      · rw [if_pos hsrc]
        dsimp only
        by_cases hrev : bitReverse8 (UInt8.ofNat j) < 162
        · have hnat : (bitReverse8 (UInt8.ofNat j)).toNat < 162 := UInt8.lt_iff_toNat_lt.mp hrev
          have hplaces : placesOf (j :: js)
              = (bitReverse8 (UInt8.ofNat j)).toNat :: placesOf js := by
            unfold placesOf
            rw [List.map_cons, List.filter_cons_of_pos (by simpa using hnat)]
          rw [if_pos hrev, load_eq convolved hsrc, ok_bind, hplaces, drop_get convolved hsrc,
            List.zip_cons_cons, Scatter.scatter]
          cases store interleaved (bitReverse8 (UInt8.ofNat j)).toNat (convolved.get ⟨src, hsrc⟩) with
          | error e => rfl
          | ok buf => exact ih buf (src + 1)
        · have hnat : ¬ (bitReverse8 (UInt8.ofNat j)).toNat < 162 :=
            fun h => hrev (UInt8.lt_iff_toNat_lt.mpr h)
          have hplaces : placesOf (j :: js) = placesOf js := by
            unfold placesOf
            rw [List.map_cons, List.filter_cons_of_neg (by simpa using hnat)]
          rw [if_neg hrev, ih, hplaces]
      · have hend : convolved.toList.drop src = [] :=
          List.drop_of_length_le (by rw [Vector.length_toList]; omega)
        rw [if_neg hsrc, hend, List.zip_nil_right]
        rfl

/-- **The outputs change places and none is lost.** -/
theorem interleave_spec (convolved before : Vector UInt8 162) :
    ∃ interleaved, interleave convolved before = .ok interleaved ∧
      Scatter.gather interleaved places = convolved.toList.map some := by
  have hlen : places.length = convolved.toList.length := by
    rw [places_length, Vector.length_toList]
  have hfst : (places.zip convolved.toList).map Prod.fst = places :=
    List.map_fst_zip (Nat.le_of_eq hlen)
  have hin : ∀ s ∈ places.zip convolved.toList, s.1 < 162 :=
    fun s hs => places_lt s.1 (List.of_mem_zip hs).1
  obtain ⟨interleaved, hok, hat, -⟩ := Scatter.scatter_spec before hin
    (by rw [hfst]; exact places_nodup)
  refine ⟨interleaved, ?_, Scatter.gather_eq hlen hat⟩
  rw [interleave, interleaveFrom_eq]
  exact hok

/-! ## The sync vector -/

/-- The symbol at `i`. -/
def symbolAt (interleaved : Vector UInt8 162) (i : Nat) : UInt8 :=
  interleaved.toList.getD i 0 * 2 + syncVector.toList.getD i 0

/-- **Every symbol is written**, whatever was in the array. -/
theorem mergeSync_spec (interleaved before : Vector UInt8 162) :
    ∃ symbols, mergeSync interleaved before = .ok symbols ∧
      symbols.toList = (List.range 162).map (symbolAt interleaved) := by
  apply Scatter.loop_range
  · intro symbols
    rfl
  · intro symbols i is hi
    rw [mergeSyncFrom, load_eq interleaved hi, ok_bind, load_eq syncVector hi, ok_bind, symbolAt,
      get_getD interleaved hi 0, get_getD syncVector hi 0]

/-! ## The packed message -/

theorem packMessage_toList (n : UInt32) (m : Int32) : (packMessage n m).toList =
    [((n >>> 20) &&& 0xFF).toUInt8, ((n >>> 12) &&& 0xFF).toUInt8, ((n >>> 4) &&& 0xFF).toUInt8,
      (((n &&& 0x0F) <<< 4) ||| ((m >>> 18) &&& 0x0F).toUInt32).toUInt8,
      ((m >>> 10) &&& 0xFF).toUInt32.toUInt8, ((m >>> 2) &&& 0xFF).toUInt32.toUInt8,
      ((m &&& 0x03) <<< 6).toUInt32.toUInt8, 0, 0, 0, 0] := rfl

/-- Eight bits of a word, from bit `k` on. -/
theorem byteAt (n : UInt32) {k : Nat} (hk : k < 32) :
    ((n >>> UInt32.ofNat k) &&& 0xFF).toUInt8.toNat = n.toNat / (1 <<< k) % 256 := by
  have hshift : (UInt32.ofNat k).toNat % 32 = k := by
    rw [UInt32.toNat_ofNat']
    omega
  have hmask : (0xFF : UInt32).toNat = 1 <<< 8 - 1 := rfl
  rw [UInt32.toNat_toUInt8, UInt32.toNat_and, UInt32.toNat_shiftRight, hshift, hmask,
    Nat.shiftRight_eq_div_pow, Nat.shiftLeft_eq, Nat.shiftLeft_eq, Nat.one_mul, Nat.one_mul,
    Nat.and_two_pow_sub_one_eq_mod]
  omega

section Grid

variable {m : Int32}

/-- A number that is not negative shifts as an unsigned one. -/
theorem toUInt32_shiftRight (hm : 0 ≤ m.toInt) {k : Int32} {k' : UInt32}
    (hk : k.toBitVec.smod 32#32 = k'.toBitVec % 32#32) : (m >>> k).toUInt32 = m.toUInt32 >>> k' := by
  have hmsb : m.toBitVec.msb = false := by
    rw [BitVec.msb_eq_toInt, decide_eq_false_iff_not]
    exact Int.not_lt.mpr hm
  apply UInt32.toBitVec_inj.mp
  show m.toBitVec.sshiftRight' (k.toBitVec.smod 32#32) = m.toBitVec >>> (k'.toBitVec % 32#32)
  rw [hk]
  exact BitVec.sshiftRight_eq_of_msb_false hmsb

theorem toNat_toUInt32 (hm : 0 ≤ m.toInt) : (m.toUInt32.toNat : Int) = m.toInt := by
  have hle : 0 ≤ m := Int32.le_iff_toInt_le.mpr hm
  rw [Int32.toNat_toUInt32_of_le hle]
  exact Int.toNat_of_nonneg hm

/-- Four bits in front of four. -/
theorem nibbles (a b : UInt32) :
    (((a &&& 0x0F) <<< 4) ||| (b &&& 0x0F)).toUInt8.toNat = a.toNat % 16 * 16 + b.toNat % 16 := by
  have hmask : (0x0F : UInt32).toNat = 2 ^ 4 - 1 := rfl
  have hshift : (4 : UInt32).toNat % 32 = 4 := rfl
  have hb : b.toNat % 2 ^ 4 < 2 ^ 4 := Nat.mod_lt _ (by decide)
  have hfit : (a.toNat % 2 ^ 4) <<< 4 < 2 ^ 32 := by
    rw [Nat.shiftLeft_eq]
    omega
  rw [UInt32.toNat_toUInt8, UInt32.toNat_or, UInt32.toNat_shiftLeft, UInt32.toNat_and,
    UInt32.toNat_and, hmask, hshift, Nat.and_two_pow_sub_one_eq_mod, Nat.and_two_pow_sub_one_eq_mod,
    Nat.mod_eq_of_lt hfit, ← Nat.shiftLeft_add_eq_or_of_lt hb, Nat.shiftLeft_eq]
  omega

/-- The first number in three bytes and a half, whatever the other half holds. -/
theorem packed_callsign (n : Nat) {half : Nat} (h : half < 16) :
    n % 268435456 = n / 1048576 % 256 * 1048576 + n / 4096 % 256 * 4096 + n / 16 % 256 * 16
      + (n % 16 * 16 + half) / 16 := by
  have hhigh : (n % 16 * 16 + half) / 16 = n % 16 := by omega
  rw [hhigh]
  omega

/-- The second one in half a byte, two bytes, and the top of one. -/
theorem packed_grid {m : Nat} (h : m < 4194304) (half : Nat) :
    m = (half % 16 * 16 + m / 262144 % 16) % 16 * 262144 + m / 1024 % 256 * 1024
      + m / 4 % 256 * 4 + m % 4 * 64 / 64 := by
  have hlow : (half % 16 * 16 + m / 262144 % 16) % 16 = m / 262144 := by omega
  rw [hlow]
  omega

/-- **The bytes of a packed message give its two numbers**, the first one to its 28 bits. -/
theorem packed_numbers {n : UInt32} (hm : 0 ≤ m.toInt)
    (hm' : m.toInt < 4194304) {p : List UInt8} (hp : p = (packMessage n m).toList) :
    n.toNat % 268435456 = (p.getD 0 0).toNat * 1048576 + (p.getD 1 0).toNat * 4096
        + (p.getD 2 0).toNat * 16 + (p.getD 3 0).toNat / 16 ∧
      m.toInt = ((p.getD 3 0).toNat % 16 * 262144 + (p.getD 4 0).toNat * 1024
        + (p.getD 5 0).toNat * 4 + (p.getD 6 0).toNat / 64 : Nat) := by
  subst hp
  have hword := toNat_toUInt32 hm
  rw [packMessage_toList]
  have h₀ : ((n >>> 20) &&& 0xFF).toUInt8.toNat = _ := @byteAt n 20 (by decide)
  have h₁ : ((n >>> 12) &&& 0xFF).toUInt8.toNat = _ := @byteAt n 12 (by decide)
  have h₂ : ((n >>> 4) &&& 0xFF).toUInt8.toNat = _ := @byteAt n 4 (by decide)
  have h₃ : (((n &&& 0x0F) <<< 4) ||| ((m >>> 18) &&& 0x0F).toUInt32).toUInt8.toNat
      = n.toNat % 16 * 16 + m.toUInt32.toNat / 262144 % 16 := by
    have hb : ((m >>> 18) &&& 0x0F).toUInt32 = (m.toUInt32 >>> 18) &&& 0x0F := by
      rw [Int32.toUInt32_and, @toUInt32_shiftRight m hm 18 18 (by decide)]
      rfl
    have hdiv : (m.toUInt32 >>> 18).toNat = m.toUInt32.toNat / 262144 := by
      rw [UInt32.toNat_shiftRight, Nat.shiftRight_eq_div_pow]
      rfl
    rw [hb, nibbles, hdiv]
  have h₄ : ((m >>> 10) &&& 0xFF).toUInt32.toUInt8.toNat = m.toUInt32.toNat / 1024 % 256 := by
    rw [Int32.toUInt32_and, @toUInt32_shiftRight m hm 10 10 (by decide)]
    exact @byteAt m.toUInt32 10 (by decide)
  have h₅ : ((m >>> 2) &&& 0xFF).toUInt32.toUInt8.toNat = m.toUInt32.toNat / 4 % 256 := by
    rw [Int32.toUInt32_and, @toUInt32_shiftRight m hm 2 2 (by decide)]
    exact @byteAt m.toUInt32 2 (by decide)
  have h₆ : ((m &&& 0x03) <<< 6).toUInt32.toUInt8.toNat = m.toUInt32.toNat % 4 * 64 := by
    have hword : ((m &&& 0x03) <<< 6).toUInt32 = (m.toUInt32 &&& 0x03) <<< 6 := rfl
    have hmask : (0x03 : UInt32).toNat = 2 ^ 2 - 1 := rfl
    have hshift : (6 : UInt32).toNat % 32 = 6 := rfl
    rw [hword, UInt32.toNat_toUInt8, UInt32.toNat_shiftLeft, UInt32.toNat_and, hmask, hshift,
      Nat.and_two_pow_sub_one_eq_mod, Nat.shiftLeft_eq]
    omega
  simp only [List.getD_cons_zero, List.getD_cons_succ]
  rw [h₀, h₁, h₂, h₃, h₄, h₅, h₆]
  have hp20 : 1 <<< 20 = 1048576 := rfl
  have hp12 : 1 <<< 12 = 4096 := rfl
  have hp4 : 1 <<< 4 = 16 := rfl
  rw [hp20, hp12, hp4]
  refine ⟨packed_callsign _ (Nat.mod_lt _ (by decide)), ?_⟩
  rw [← hword, Int.natCast_inj]
  exact packed_grid (by omega) _

end Grid

/-- The bits that are read give the first ten bytes. -/
theorem inputBits_inj {p q : Vector UInt8 11} (h : inputBits p = inputBits q) :
    p.toList.take 10 = q.toList.take 10 := by
  have hten : ∀ r : Vector UInt8 11, (inputBits r).take 80 = (r.toList.take 10).flatMap bitsOf := by
    intro r
    rw [inputBits, List.take_take]
    exact Blocks.flatMap_take bitsOf_length 10 r.toList
  have hbits := hten p
  rw [h, hten q] at hbits
  exact (Blocks.flatMap_inj bitsOf_length (by decide) (fun a b => bitsOf_inj) hbits).symm

/-- **The message is read back from its packed form**, its first number to the 28 bits. -/
theorem packMessage_inj {n n' : UInt32} {m m' : Int32} (hm : 0 ≤ m.toInt ∧ m.toInt < 4194304)
    (hm' : 0 ≤ m'.toInt ∧ m'.toInt < 4194304)
    (h : inputBits (packMessage n m) = inputBits (packMessage n' m')) :
    n.toNat % 268435456 = n'.toNat % 268435456 ∧ m.toInt = m'.toInt := by
  have htake := inputBits_inj h
  have hbyte : ∀ i < 10, (packMessage n m).toList.getD i 0 = (packMessage n' m').toList.getD i 0 := by
    intro i hi
    have hget : ∀ l : List UInt8, (l.take 10)[i]? = l[i]? :=
      fun l => by rw [List.getElem?_take, if_pos hi]
    rw [List.getD_eq_getElem?_getD, List.getD_eq_getElem?_getD, ← hget (packMessage n m).toList,
      htake, hget]
  obtain ⟨hnum, hgrid⟩ := @packed_numbers m n hm.1 hm.2 _ rfl
  obtain ⟨hnum', hgrid'⟩ := @packed_numbers m' n' hm'.1 hm'.2 _ rfl
  rw [hbyte 0 (by decide), hbyte 1 (by decide), hbyte 2 (by decide), hbyte 3 (by decide)] at hnum
  rw [hbyte 3 (by decide), hbyte 4 (by decide), hbyte 5 (by decide), hbyte 6 (by decide)] at hgrid
  exact ⟨hnum.trans hnum'.symm, hgrid.trans hgrid'.symm⟩

/-! ## All stages -/

/-- The stages of a message, which do not depend on what the arrays held. -/
structure Stages (n : UInt32) (m : Int32) where
  convolved : Vector UInt8 162
  interleaved : Vector UInt8 162
  symbols : Vector UInt8 162
  outputs_eq : convolved.toList = outputs 0 (inputBits (packMessage n m))
  gather_eq : Scatter.gather interleaved places = convolved.toList.map some
  symbols_eq : symbols.toList = (List.range 162).map (symbolAt interleaved)

/-- **Every place is written**: the symbols are the same whatever the arrays held. -/
theorem channelCode_spec (n : UInt32) (m : Int32) :
    ∃ st : Stages n m, ∀ stack before, channelCode stack n m before = .ok st.symbols := by
  obtain ⟨convolved, -, hconv⟩ := convolve_spec (packMessage n m) (Vector.replicate 162 0)
  obtain ⟨interleaved, -, hint⟩ := interleave_spec convolved (Vector.replicate 162 0)
  obtain ⟨symbols, -, hsym⟩ := mergeSync_spec interleaved (Vector.replicate 162 0)
  refine ⟨⟨convolved, interleaved, symbols, hconv, hint, hsym⟩, ?_⟩
  intro stack before
  obtain ⟨convolved', hc, hconv'⟩ := convolve_spec (packMessage n m) stack.convolved
  have heq₁ : convolved' = convolved := Vector.toList_inj.mp (hconv'.trans hconv.symm)
  subst heq₁
  obtain ⟨interleaved', hi, hint'⟩ := interleave_spec convolved' stack.interleaved
  have heq₂ : interleaved' = interleaved := Scatter.gather_inj places_all (hint'.trans hint.symm)
  subst heq₂
  obtain ⟨symbols', hs, hsym'⟩ := mergeSync_spec interleaved' before
  have heq₃ : symbols' = symbols := Vector.toList_inj.mp (hsym'.trans hsym.symm)
  subst heq₃
  unfold channelCode
  dsimp only
  rw [hc, ok_bind, hi, ok_bind, hs]

section Stages

variable {n n' : UInt32} {m m' : Int32}

/-- What is interleaved are bits. -/
theorem Stages.bit_lt (st : Stages n m) {i : Nat} (hi : i < 162) :
    (st.interleaved.toList.getD i 0).toNat < 2 := by
  have hmem : st.interleaved.toList.getD i 0 ∈ st.interleaved.toList := by
    have hlist : i < st.interleaved.toList.length := by rwa [Vector.length_toList]
    rw [List.getD_eq_getElem?_getD, List.getElem?_eq_getElem hlist, Option.getD_some]
    exact List.getElem_mem hlist
  have hconv := Scatter.mem_of_gather places_all st.gather_eq _ hmem
  rw [st.outputs_eq] at hconv
  exact outputs_lt _ hconv

theorem Stages.symbol_eq (st : Stages n m) {i : Nat} (hi : i < 162) :
    st.symbols.toList.getD i 0 = symbolAt st.interleaved i := by
  rw [st.symbols_eq, List.getD_eq_getElem?_getD, List.getElem?_map, List.getElem?_range hi]
  rfl

theorem sync_lt : ∀ i < 162, (syncVector.toList.getD i 0).toNat < 2 := by decide +kernel

/-- A bit and a sync bit in one symbol. -/
theorem symbol_toNat {v sync : UInt8} (hv : v.toNat < 2) (hs : sync.toNat < 2) :
    (v * 2 + sync).toNat = v.toNat * 2 + sync.toNat := by
  have h2 : (2 : UInt8).toNat = 2 := rfl
  rw [UInt8.toNat_add, UInt8.toNat_mul, h2]
  omega

/-- **A symbol is one of four, and its low bit is the sync vector's.** -/
theorem Stages.symbol_range (st : Stages n m) {i : Nat} (hi : i < 162) :
    st.symbols.get ⟨i, hi⟩ ≤ 3 ∧ st.symbols.get ⟨i, hi⟩ &&& 1 = syncVector.get ⟨i, hi⟩ := by
  have hv := st.bit_lt hi
  have hs := sync_lt i hi
  have hnat : (symbolAt st.interleaved i).toNat = _ := symbol_toNat hv hs
  rw [get_getD st.symbols hi 0, get_getD syncVector hi 0, st.symbol_eq hi]
  constructor
  · apply UInt8.le_iff_toNat_le.mpr
    have h3 : (3 : UInt8).toNat = 3 := rfl
    omega
  · apply UInt8.toNat_inj.mp
    have h1 : (1 : UInt8).toNat = 1 := rfl
    rw [UInt8.toNat_and, h1, Nat.and_one_is_mod]
    omega

/-- **The symbols give the input bits.** -/
theorem Stages.inputBits_eq (st : Stages n m) (st' : Stages n' m') (h : st.symbols = st'.symbols) :
    inputBits (packMessage n m) = inputBits (packMessage n' m') := by
  have hbit : ∀ i < 162, st.interleaved.toList.getD i 0 = st'.interleaved.toList.getD i 0 := by
    intro i hi
    have hsym : symbolAt st.interleaved i = symbolAt st'.interleaved i := by
      rw [← st.symbol_eq hi, ← st'.symbol_eq hi, h]
    have hnat := congrArg UInt8.toNat hsym
    unfold symbolAt at hnat
    rw [symbol_toNat (st.bit_lt hi) (sync_lt i hi), symbol_toNat (st'.bit_lt hi) (sync_lt i hi)]
      at hnat
    apply UInt8.toNat_inj.mp
    omega
  have hint : st.interleaved = st'.interleaved := by
    apply Vector.ext
    intro i hi
    have := hbit i hi
    rw [← get_getD _ hi, ← get_getD _ hi] at this
    exact this
  have hconv : st.convolved.toList = st'.convolved.toList := by
    have hgather := st.gather_eq
    rw [hint, st'.gather_eq] at hgather
    exact (List.map_inj_right (fun a b => Option.some.inj)).mp hgather.symm
  rw [st.outputs_eq, st'.outputs_eq] at hconv
  exact outputs_inj hconv

end Stages

/-! ## Grid and power -/

/-- What `validate_grid` lets through. -/
structure GridAccepted (grid : List UInt8) : Prop where
  length : grid.length = 4
  first : between 'A' 'R' (toupper (charAt grid 0)) = true
  second : between 'A' 'R' (toupper (charAt grid 1)) = true
  third : between '0' '9' (charAt grid 2) = true
  fourth : between '0' '9' (charAt grid 3) = true

theorem gridAccepted {grid : List UInt8} (h : validateGrid grid = true) : GridAccepted grid := by
  unfold validateGrid at h
  split at h
  · cases h
  next hlen =>
  dsimp only at h
  split at h
  · cases h
  next hletters =>
  split at h
  · cases h
  next hdigits =>
  rw [Bool.or_eq_true, not_or, Bool.not_eq_true', Bool.not_eq_true', Bool.not_eq_false,
    Bool.not_eq_false] at hletters hdigits
  exact ⟨Decidable.not_not.mp hlen, hletters.1, hletters.2, hdigits.1, hdigits.2⟩

theorem charDiff_range {base hi : Char} {c : UInt8} (h : between base hi c = true) :
    0 ≤ charDiff c base ∧ charDiff c base ≤ (hi.toUInt8.toNat : Int) - base.toUInt8.toNat := by
  have := between_bounds h
  unfold charDiff
  omega

theorem charDiff_inj (base : Char) {c d : UInt8} (h : charDiff c base = charDiff d base) : c = d := by
  unfold charDiff at h
  exact UInt8.toNat_inj.mp (by omega)

/-- The number of a grid. -/
def locNumber (grid : List UInt8) : Int :=
  (179 - 10 * charDiff (toupper (charAt grid 0)) 'A' - charDiff (charAt grid 2) '0') * 180
    + 10 * charDiff (toupper (charAt grid 1)) 'A' + charDiff (charAt grid 3) '0'

theorem power_range {power : Int} (h : isValidPower power = true) : 0 ≤ power ∧ power ≤ 60 := by
  have hall : ∀ p ∈ validPowers, 0 ≤ p ∧ p ≤ 60 := by decide
  obtain ⟨p, hmem, heq⟩ := List.any_eq_true.mp h
  rw [beq_iff_eq] at heq
  rw [← heq]
  exact hall p hmem

section Accepted

variable {grid grid' : List UInt8} {power power' : Int}

theorem GridAccepted.locNumber_range (h : GridAccepted grid) :
    0 ≤ locNumber grid ∧ locNumber grid ≤ 32399 := by
  have h₀ : _ ∧ _ ≤ (17 : Int) := charDiff_range h.first
  have h₁ : _ ∧ _ ≤ (17 : Int) := charDiff_range h.second
  have h₂ : _ ∧ _ ≤ (9 : Int) := charDiff_range h.third
  have h₃ : _ ∧ _ ≤ (9 : Int) := charDiff_range h.fourth
  unfold locNumber
  omega

theorem encodeGridPower_toInt (h : GridAccepted grid) (hpower : isValidPower power = true) :
    (encodeGridPower grid power).toInt = locNumber grid * 128 + power + 64 := by
  have hloc := h.locNumber_range
  have hrange := power_range hpower
  have h₀ := (charDiff_range h.first).1
  have h₁ := (charDiff_range h.second).1
  have hcode : encodeGridPower grid power = Int32.ofInt (locNumber grid * 128 + power + 64) := by
    unfold encodeGridPower gridCharToIndex
    dsimp only
    rw [if_pos h.first, if_pos h.second, if_neg (by omega)]
    rfl
  rw [hcode]
  exact Int32.toInt_ofInt_of_le (by omega) (by omega)

/-- The number of grid and power has 22 bits. -/
theorem encodeGridPower_range (h : GridAccepted grid) (hpower : isValidPower power = true) :
    0 ≤ (encodeGridPower grid power).toInt ∧ (encodeGridPower grid power).toInt < 4194304 := by
  have hloc := h.locNumber_range
  have hrange := power_range hpower
  rw [encodeGridPower_toInt h hpower]
  omega

theorem GridAccepted.grid_eq (h : GridAccepted grid) :
    grid = [charAt grid 0, charAt grid 1, charAt grid 2, charAt grid 3] := by
  obtain ⟨a, b, c, d, rfl⟩ : ∃ a b c d, grid = [a, b, c, d] := by
    match grid, h.length with
    | [a, b, c, d], _ => exact ⟨a, b, c, d, rfl⟩
  rfl

/-- The number of a grid gives its characters, in upper case. -/
theorem locNumber_inj (h : GridAccepted grid) (h' : GridAccepted grid')
    (heq : locNumber grid = locNumber grid') : grid.map toupper = grid'.map toupper := by
  have h₀ : _ ∧ _ ≤ (17 : Int) := charDiff_range h.first
  have h₁ : _ ∧ _ ≤ (17 : Int) := charDiff_range h.second
  have h₂ : _ ∧ _ ≤ (9 : Int) := charDiff_range h.third
  have h₃ : _ ∧ _ ≤ (9 : Int) := charDiff_range h.fourth
  have h₀' : _ ∧ _ ≤ (17 : Int) := charDiff_range h'.first
  have h₁' : _ ∧ _ ≤ (17 : Int) := charDiff_range h'.second
  have h₂' : _ ∧ _ ≤ (9 : Int) := charDiff_range h'.third
  have h₃' : _ ∧ _ ≤ (9 : Int) := charDiff_range h'.fourth
  unfold locNumber at heq
  -- two numbers of two digits each
  have hfirst : 10 * charDiff (toupper (charAt grid 0)) 'A' + charDiff (charAt grid 2) '0'
      = 10 * charDiff (toupper (charAt grid' 0)) 'A' + charDiff (charAt grid' 2) '0' := by omega
  have hsecond : 10 * charDiff (toupper (charAt grid 1)) 'A' + charDiff (charAt grid 3) '0'
      = 10 * charDiff (toupper (charAt grid' 1)) 'A' + charDiff (charAt grid' 3) '0' := by omega
  clear heq
  have e₀ : toupper (charAt grid 0) = toupper (charAt grid' 0) := charDiff_inj 'A' (by omega)
  have e₁ : toupper (charAt grid 1) = toupper (charAt grid' 1) := charDiff_inj 'A' (by omega)
  have e₂ : charAt grid 2 = charAt grid' 2 := charDiff_inj '0' (by omega)
  have e₃ : charAt grid 3 = charAt grid' 3 := charDiff_inj '0' (by omega)
  rw [h.grid_eq, h'.grid_eq]
  simp only [List.map_cons, List.map_nil]
  rw [e₀, e₁, e₂, e₃]

/-- **The number of grid and power gives both.** -/
theorem encodeGridPower_inj (h : GridAccepted grid) (h' : GridAccepted grid')
    (hpower : isValidPower power = true) (hpower' : isValidPower power' = true)
    (heq : (encodeGridPower grid power).toInt = (encodeGridPower grid' power').toInt) :
    grid.map toupper = grid'.map toupper ∧ power = power' := by
  have hrange := power_range hpower
  have hrange' := power_range hpower'
  rw [encodeGridPower_toInt h hpower, encodeGridPower_toInt h' hpower'] at heq
  exact ⟨locNumber_inj h h' (by omega), by omega⟩

/-- **The channel code loses nothing.** The number of an accepted grid and power has 22 bits, and 162
symbols are written for it and a number of 28 bits, the same ones whatever was in the arrays. Each
is one of four and has the bit of the sync vector as its low bit, and all of them together give the
two numbers, and so the grid in upper case and the power. -/
theorem channel_code_lossless {n n' : UInt32} (hn : n.toNat < 268435456)
    (hn' : n'.toNat < 268435456) (hgrid : validateGrid grid = true)
    (hgrid' : validateGrid grid' = true) (hpower : isValidPower power = true)
    (hpower' : isValidPower power' = true) :
    (0 ≤ (encodeGridPower grid power).toInt ∧ (encodeGridPower grid power).toInt < 4194304) ∧
      ∃ symbols symbols' : Vector UInt8 162,
        (∀ stack before, channelCode stack n (encodeGridPower grid power) before = .ok symbols) ∧
        (∀ stack before, channelCode stack n' (encodeGridPower grid' power') before
          = .ok symbols') ∧
        (∀ i, (hi : i < 162) →
          symbols.get ⟨i, hi⟩ ≤ 3 ∧ symbols.get ⟨i, hi⟩ &&& 1 = syncVector.get ⟨i, hi⟩) ∧
        (symbols = symbols' →
          n = n' ∧ grid.map toupper = grid'.map toupper ∧ power = power') := by
  have hg := gridAccepted hgrid
  have hg' := gridAccepted hgrid'
  have hm := encodeGridPower_range hg hpower
  have hm' := encodeGridPower_range hg' hpower'
  obtain ⟨st, hst⟩ := channelCode_spec n (encodeGridPower grid power)
  obtain ⟨st', hst'⟩ := channelCode_spec n' (encodeGridPower grid' power')
  refine ⟨hm, st.symbols, st'.symbols, hst, hst', fun i hi => st.symbol_range hi, ?_⟩
  intro heq
  obtain ⟨hnum, hgp⟩ := packMessage_inj hm hm' (st.inputBits_eq st' heq)
  rw [Nat.mod_eq_of_lt hn, Nat.mod_eq_of_lt hn'] at hnum
  exact ⟨UInt32.toNat_inj.mp hnum, encodeGridPower_inj hg hg' hpower hpower' hgp⟩

end Accepted

/-- The number of K1ABC in FN42 at 37 dBm, and another one. -/
theorem channel_code_lossless_k1abc :
    (encodeGridPower (literal "FN42") 37).toInt < 4194304 ∧
      ∃ symbols symbols' : Vector UInt8 162,
        (∀ stack before, channelCode stack 259047992 (encodeGridPower (literal "FN42") 37) before
          = .ok symbols) ∧
        (∀ stack before, channelCode stack 259047993 (encodeGridPower (literal "fn42") 37) before
          = .ok symbols') ∧
        symbols ≠ symbols' := by
  obtain ⟨hrange, symbols, symbols', hst, hst', -, hinj⟩ :=
    @channel_code_lossless (literal "FN42") (literal "fn42") 37 37 259047992 259047993 (by decide)
      (by decide) (by decide) (by decide) (by decide) (by decide)
  exact ⟨hrange.2, symbols, symbols', hst, hst', fun heq => absurd (hinj heq).1 (by decide)⟩

end MiniHF.Modes.Wspr
