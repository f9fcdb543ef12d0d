import MiniHF.Modes.EncoderProof

/-!
# The layout of a payload

`layout` is what a message type means on the air: which field stands where, how
wide it is and whose encoder fills it, down to the type bits. The packing code is
a chain of stores at hand-computed offsets, and it leaves exactly the layout
behind (`encode_spec`).

Two facts carry it. The code is a list of runs (`encode_eq_runs`), no two of which
overlap (`runs_apart`), so by the rule for runs each holds its bits in the end.
And every value fits its run (`layout_fits`), so that reading the bits back gives
the value.
-/

namespace MiniHF.Ftx

open Buffer

/-! ## Reading what was packed -/

/-- The C code's test of a bit. -/
theorem testBit_eq (buf : List UInt8) (pos : Nat) : testBit buf pos = Bits.bit buf pos := by
  have hm := Bits.testBit_mask (show 7 - pos % 8 < 8 by omega)
  have hne : testBit buf pos = ((buf.getD (pos / 8) 0).toNat
      &&& (1 <<< UInt8.ofNat (7 - pos % 8) : UInt8).toNat != 0) := by
    unfold testBit
    rw [← UInt8.toNat_and, Bool.eq_iff_iff, bne_iff_ne, bne_iff_ne, ne_eq, ne_eq,
      ← UInt8.toNat_inj]
    rfl
  rw [hne, Bits.and_mask hm]
  rfl

/-- The bit of `value` that `pack_bits` stores at place `k` of `n`. -/
theorem packed_bit (value : UInt64) {n k : Nat} (hn : n ≤ 64) (hk : k < n) :
    (value &&& (1 <<< UInt64.ofNat (n - 1 - k)) != 0) = value.toNat.testBit (n - 1 - k) := by
  have hm := Bits.testBit_mask64 (show n - 1 - k < 64 by omega)
  rw [← Bits.and_mask hm, ← UInt64.toNat_and, Bool.eq_iff_iff, bne_iff_ne, bne_iff_ne, ne_eq, ne_eq,
    ← UInt64.toNat_inj]
  rfl

/-- The loop of `unpack_bits` has the number its bits stand for, shifted to its place. -/
theorem unpackBitsLoop_eq (buf : List UInt8) (bitPos : Nat) {n i : Nat} (hn : n ≤ 64) (hi : i ≤ n)
    (j : Nat) :
    (unpackBitsLoop buf bitPos n i).toNat.testBit j
      = (decide (n - i ≤ j ∧ j < n) && Bits.bit buf (bitPos + (n - 1 - j))) := by
  induction i with
  | zero =>
      rw [unpackBitsLoop, UInt64.toNat_zero, Nat.zero_testBit, decide_eq_false (by omega)]
      rfl
  | succ i ih =>
      have ih := ih (by omega)
      have hm := Bits.testBit_mask64 (show n - 1 - i < 64 by omega) j
      rw [unpackBitsLoop, testBit_eq]
      -- bit `n - 1 - i` is the one this turn is about
      by_cases hj : j = n - 1 - i
      · have hpos : bitPos + (n - 1 - j) = bitPos + i := by omega
        rw [decide_eq_false (by omega)] at ih
        rw [hpos, decide_eq_true (by omega)]
        cases hb : Bits.bit buf (bitPos + i) with
        | true =>
            rw [if_pos rfl, UInt64.toNat_or, Nat.testBit_or, ih, hm]
            simp [hj]
        | false =>
            rw [if_neg (by simp), ih]
            rfl
      · have hrange : (n - (i + 1) ≤ j ∧ j < n) ↔ (n - i ≤ j ∧ j < n) := by omega
        rw [decide_eq_decide.mpr hrange, ← ih]
        split
        · rw [UInt64.toNat_or, Nat.testBit_or, hm, decide_eq_false hj, Bool.or_false]
        · rfl

/-- `unpack_bits` returns the number the bits stand for. -/
theorem unpackBits_toNat {m : Nat} (buf : Vector UInt8 m) (bitPos : Nat) {n : Nat} (hn : n ≤ 64) :
    (unpackBits buf bitPos n).toNat = Bits.readBits buf.toList bitPos n := by
  apply Nat.eq_of_testBit_eq
  intro j
  rw [unpackBits, unpackBitsLoop_eq _ _ hn (Nat.le_refl n), Bits.readBits, Bits.testBit_bitsValue]
  congr 1
  exact decide_eq_decide.mpr (by omega)

/-- So it returns the value whose bits stand in the buffer. -/
theorem unpackBits_eq {m : Nat} {buf : Vector UInt8 m} {bitPos n : Nat} {value : UInt64}
    (hn : n ≤ 64) (hv : value.toNat < 1 <<< n)
    (h : ∀ k < n, Bits.bit buf.toList (bitPos + k) = value.toNat.testBit (n - 1 - k)) :
    unpackBits buf bitPos n = value := by
  apply UInt64.toNat_inj.mp
  rw [unpackBits_toNat buf bitPos hn]
  exact Bits.bitsValue_eq hv h

/-! ## Layouts -/

/-- A field: where it starts, how many bits it has, and the value it carries. -/
structure Field where
  pos : Nat
  width : Nat
  value : UInt64

/-- What the section field carries: 0 for a section `encode_S7` does not know. -/
def sectionValue (name : CString 3) : UInt8 :=
  if encodeS7 name.chars ≥ 0 then (encodeS7 name.chars).toUInt8 else 0

/-- The fields of a message. Free text and telemetry are one number and have type bits only. -/
def layout : Payload → List Field
  | .freeText _ => [⟨74, 3, 0⟩, ⟨71, 3, 0⟩]
  | .dxpedition p =>
      [⟨0, 28, (encodeC28 p.c28_0).toUInt64⟩,
       ⟨28, 28, (encodeC28 p.c28_1).toUInt64⟩,
       ⟨56, 10, (p.h10 &&& 0x3FF).toUInt64⟩,
       ⟨66, 5, (encodeR5 p.r5.toInt).toUInt64⟩,
       ⟨74, 3, 0⟩, ⟨71, 3, 1⟩]
  | .fieldDay p =>
      [⟨0, 28, (encodeC28 p.c28_0).toUInt64⟩,
       ⟨28, 28, (encodeC28 p.c28_1).toUInt64⟩,
       ⟨56, 1, flag p.R1⟩,
       ⟨57, 4, (p.n4 &&& 0x0F).toUInt64⟩,
       ⟨61, 3, (encodeK3 p.k3).toUInt64⟩,
       ⟨64, 7, (sectionValue p.S7).toUInt64⟩,
       ⟨74, 3, 0⟩, ⟨71, 3, if p.transmitterCount > 16 then 4 else 3⟩]
  | .telemetry _ => [⟨74, 3, 0⟩, ⟨71, 3, 5⟩]
  | .std p =>
      [⟨0, 28, (encodeC28 p.c28_0).toUInt64⟩,
       ⟨28, 1, flag p.roverSuffix0⟩,
       ⟨29, 28, (encodeC28 p.c28_1).toUInt64⟩,
       ⟨57, 1, flag p.roverSuffix1⟩,
       ⟨58, 1, flag p.R1⟩,
       ⟨59, 15, (encodeG15 p.g15).toUInt64⟩,
       ⟨74, 3, 1⟩]
  | .euVhf2 p =>
      [⟨0, 28, (encodeC28 p.c28_0).toUInt64⟩,
       ⟨28, 1, flag p.pSuffix0⟩,
       ⟨29, 28, (encodeC28 p.c28_1).toUInt64⟩,
       ⟨57, 1, flag p.pSuffix1⟩,
       ⟨58, 1, flag p.R1⟩,
       ⟨59, 15, (encodeG15 p.g15).toUInt64⟩,
       ⟨74, 3, 2⟩]
  | .rttyRu p =>
      [⟨0, 1, flag p.t1⟩,
       ⟨1, 28, (encodeC28 p.c28_0).toUInt64⟩,
       ⟨29, 28, (encodeC28 p.c28_1).toUInt64⟩,
       ⟨57, 1, flag p.R1⟩,
       ⟨58, 3, (encodeR3 p.r3.toNat).toUInt64⟩,
       ⟨61, 13, (encodeS13 p.s13).toUInt64⟩,
       ⟨74, 3, 3⟩]
  | .nonstd p =>
      [⟨0, 12, (p.h12 &&& 0xFFF).toUInt64⟩,
       ⟨12, 58, encodeC58 p.c58.chars⟩,
       ⟨70, 1, flag p.h1⟩,
       ⟨71, 2, (encodeR2 p.r2).toUInt64⟩,
       ⟨73, 1, flag p.c1⟩,
       ⟨74, 3, 4⟩]
  | .euVhf5 p =>
      [⟨0, 12, (p.h12 &&& 0xFFF).toUInt64⟩,
       ⟨12, 22, (p.h22 &&& 0x3FFFFF).toUInt64⟩,
       ⟨34, 1, flag p.R1⟩,
       ⟨35, 3, (encodeR3 p.r3.toNat).toUInt64⟩,
       ⟨38, 11, (encodeS11 p.s11).toUInt64⟩,
       ⟨49, 25, (encodeG25 p.g25.chars).toUInt64⟩,
       ⟨74, 3, 5⟩]
  | .other => []

/-- The 71-bit number of a message that is one. -/
def number : Payload → List Bits.Run
  | .freeText p => [⟨0, 71, testBit (encodeF71 p.text.chars)⟩]
  | .telemetry p => [⟨0, 71, testBit p.data.toList⟩]
  | _ => []

/-- The bits `pack_bits` stores for a field. -/
def Field.run (f : Field) : Bits.Run :=
  ⟨f.pos, f.width, fun k => f.value &&& (1 <<< UInt64.ofNat (f.width - 1 - k)) != 0⟩

/-- Every bit a message stores. -/
def runs (p : Payload) : List Bits.Run := number p ++ (layout p).map Field.run

/-- The packing code stores the runs of the message into a cleared buffer. -/
theorem encode_eq_runs (p : Payload) (output : Vector UInt8 10) :
    encodeFtxPayload p output = Bits.writeRuns (Vector.replicate 10 0) (runs p) := by
  -- two values of a field day message the code masks although they fit
  have hk3 : ∀ k : K3FdClass, encodeK3 k &&& 0x07 = encodeK3 k := by
    intro k
    cases k <;> rfl
  have hn3 : ∀ c : UInt8, ((if c > 16 then 4 else 3 : UInt8) &&& 0x07).toUInt64
      = if c > 16 then 4 else 3 := by
    intro c
    split <;> rfl
  unfold encodeFtxPayload
  cases p with
  | fieldDay p =>
      dsimp only
      unfold payloadSetN3
      rw [hk3, hn3]
      simp only [runs, number, layout, List.nil_append, List.map_cons, List.map_nil, Bits.writeRuns,
        bind_ok]
      rfl
  | _ =>
      simp only [runs, number, layout, List.nil_append, List.cons_append, List.map_cons,
        List.map_nil, Bits.writeRuns, bind_ok]
      rfl

theorem runs_fit (p : Payload) : ∀ r ∈ runs p, r.pos + r.len ≤ 8 * 10 := by
  cases p <;> simp [runs, number, layout, Field.run]

/-- No two runs of a message overlap. -/
theorem runs_apart (p : Payload) : (runs p).Pairwise Bits.Run.Apart := by
  cases p <;> simp [runs, number, layout, Field.run, Bits.Run.Apart]

/-- The last three bits belong to no field. -/
theorem runs_spare (p : Payload) {q : Nat} (hq : 77 ≤ q) : ∀ r ∈ runs p, ¬ r.Covers q := by
  cases p <;> simp [runs, number, layout, Field.run, Bits.Run.Covers] <;> omega

/-! ## Every value fits its field -/

/-- The value has no more bits than the field. -/
def Field.Fits (f : Field) : Prop := f.value.toNat < 1 <<< f.width

section Fits

variable {pos width : Nat}

theorem fits8 {v : UInt8} (hv : v.toNat < 1 <<< width) :
    Field.Fits ⟨pos, width, v.toUInt64⟩ := by
  unfold Field.Fits
  rwa [UInt8.toNat_toUInt64]

theorem fits16 {v : UInt16} (hv : v.toNat < 1 <<< width) :
    Field.Fits ⟨pos, width, v.toUInt64⟩ := by
  unfold Field.Fits
  rwa [UInt16.toNat_toUInt64]

theorem fits32 {v : UInt32} (hv : v.toNat < 1 <<< width) :
    Field.Fits ⟨pos, width, v.toUInt64⟩ := by
  unfold Field.Fits
  rwa [UInt32.toNat_toUInt64]

theorem fits_flag (pos : Nat) (b : Bool) : Field.Fits ⟨pos, 1, flag b⟩ := by
  show (flag b).toNat < 1 <<< 1
  cases b <;> decide

end Fits

theorem fits_c28 {pos : Nat} {c : C28} (h : c.HashFits) :
    Field.Fits ⟨pos, 28, (encodeC28 c).toUInt64⟩ := fits32 (encodeC28_lt h)

theorem sectionValue_lt (name : CString 3) : (sectionValue name).toNat < 1 <<< 7 := by
  show _ < 128
  unfold sectionValue
  rw [encodeS7_toUInt8, UInt8.toNat_ofNat']
  cases hi : tableIndex sections name.chars with
  | none => decide
  | some i =>
      have hlt : i < 84 := tableIndex_lt hi
      rw [Option.getD_some]
      omega

/-- The hash tokens of a message hold 22-bit hashes. -/
def Payload.HashesFit : Payload → Prop
  | .dxpedition p => p.c28_0.HashFits ∧ p.c28_1.HashFits
  | .fieldDay p => p.c28_0.HashFits ∧ p.c28_1.HashFits
  | .std p => p.c28_0.HashFits ∧ p.c28_1.HashFits
  | .euVhf2 p => p.c28_0.HashFits ∧ p.c28_1.HashFits
  | .rttyRu p => p.c28_0.HashFits ∧ p.c28_1.HashFits
  | _ => True

theorem layout_width (p : Payload) : ∀ f ∈ layout p, f.width ≤ 64 := by
  cases p <;> simp [layout]

theorem layout_fits {p : Payload} (h : p.HashesFit) : ∀ f ∈ layout p, f.Fits := by
  -- type bits are small numbers
  have hbits : ∀ (pos : Nat) (v : UInt64), v.toNat < 8 → Field.Fits ⟨pos, 3, v⟩ := fun _ _ hv => hv
  cases p with
  | freeText p =>
      simp only [layout, List.forall_mem_cons]
      exact ⟨hbits 74 0 (by decide), hbits 71 0 (by decide), by simp⟩
  | dxpedition p =>
      obtain ⟨h₀, h₁⟩ := h
      simp only [layout, List.forall_mem_cons]
      exact ⟨fits_c28 h₀, fits_c28 h₁, fits16 (mask16_lt _ _ (by decide)), fits8 (encodeR5_lt _),
        hbits 74 0 (by decide), hbits 71 1 (by decide), by simp⟩
  | fieldDay p =>
      obtain ⟨h₀, h₁⟩ := h
      have hn4 : (p.n4 &&& 0x0F).toNat < 1 <<< 4 := mask8_lt _ _ (by decide)
      have hn3 : (if p.transmitterCount > 16 then 4 else 3 : UInt64).toNat < 8 := by
        split <;> decide
      simp only [layout, List.forall_mem_cons]
      exact ⟨fits_c28 h₀, fits_c28 h₁, fits_flag 56 _, fits8 hn4, fits8 (encodeK3_lt _),
        fits8 (sectionValue_lt _), hbits 74 0 (by decide), hbits 71 _ hn3, by simp⟩
  | telemetry p =>
      simp only [layout, List.forall_mem_cons]
      exact ⟨hbits 74 0 (by decide), hbits 71 5 (by decide), by simp⟩
  | std p =>
      obtain ⟨h₀, h₁⟩ := h
      simp only [layout, List.forall_mem_cons]
      exact ⟨fits_c28 h₀, fits_flag 28 _, fits_c28 h₁, fits_flag 57 _, fits_flag 58 _,
        fits16 (encodeG15_lt _), hbits 74 1 (by decide), by simp⟩
  | euVhf2 p =>
      obtain ⟨h₀, h₁⟩ := h
      simp only [layout, List.forall_mem_cons]
      exact ⟨fits_c28 h₀, fits_flag 28 _, fits_c28 h₁, fits_flag 57 _, fits_flag 58 _,
        fits16 (encodeG15_lt _), hbits 74 2 (by decide), by simp⟩
  | rttyRu p =>
      obtain ⟨h₀, h₁⟩ := h
      simp only [layout, List.forall_mem_cons]
      exact ⟨fits_flag 0 _, fits_c28 h₀, fits_c28 h₁, fits_flag 57 _, fits8 (encodeR3_lt _),
        fits16 (encodeS13_lt _), hbits 74 3 (by decide), by simp⟩
  | nonstd p =>
      simp only [layout, List.forall_mem_cons]
      exact ⟨fits16 (mask16_lt _ _ (by decide)), encodeC58_lt p.c58.noNul, fits_flag 70 _,
        fits8 (encodeR2_lt _), fits_flag 73 _, hbits 74 4 (by decide), by simp⟩
  | euVhf5 p =>
      have hh22 : (p.h22 &&& 0x3FFFFF).toNat < 1 <<< 22 := mask32_lt _ _ (by decide)
      simp only [layout, List.forall_mem_cons]
      exact ⟨fits16 (mask16_lt _ _ (by decide)), fits32 hh22, fits_flag 34 _,
        fits8 (encodeR3_lt _), fits16 (encodeS11_lt _), fits32 (encodeG25_lt _),
        hbits 74 5 (by decide), by simp⟩
  | other => simp [layout]

/-! ## What a receiver of the bits can rely on -/

/-- **The packed message is its layout.** Every field reads back as it was filled, a message that
is one number holds its bits, and nothing else in the buffer is set. -/
theorem encode_spec {p : Payload} (h : p.HashesFit) (output : Vector UInt8 10) :
    ∃ out, encodeFtxPayload p output = .ok out ∧
      (∀ f ∈ layout p, unpackBits out f.pos f.width = f.value) ∧
      (∀ r ∈ number p, ∀ k < r.len, Bits.bit out.toList (r.pos + k) = r.bits k) ∧
      ∀ q, (∀ r ∈ runs p, ¬ r.Covers q) → Bits.bit out.toList q = false := by
  obtain ⟨out, hout, hin, hrest⟩ :=
    Bits.writeRuns_spec (Vector.replicate 10 0) (runs p) (runs_fit p) (runs_apart p)
  refine ⟨out, by rw [encode_eq_runs, hout], ?_, ?_, ?_⟩
  · intro f hf
    have hw := layout_width p f hf
    have hv := layout_fits h f hf
    have hrun : f.run ∈ runs p := List.mem_append_right _ (List.mem_map_of_mem hf)
    -- the bits of the run are the bits of the value
    refine unpackBits_eq hw hv ?_
    intro k hk
    rw [← packed_bit f.value hw hk]
    exact hin f.run hrun k hk
  · intro r hr
    exact hin r (List.mem_append_left _ hr)
  · intro q hq
    rw [hrest q hq]
    unfold Bits.bit
    rw [Vector.toList_replicate, List.getD_eq_getElem?_getD, List.getElem?_replicate]
    split <;> simp

/-- `ftx_payload_type_t`. -/
inductive PayloadType where
  | freeText
  | dxpedition
  | fieldDay
  | telemetry
  | std
  | euVhf2
  | rttyRu
  | nonstd
  | euVhf5
deriving DecidableEq, Repr

def Payload.type : Payload → Option PayloadType
  | .freeText _ => some .freeText
  | .dxpedition _ => some .dxpedition
  | .fieldDay _ => some .fieldDay
  | .telemetry _ => some .telemetry
  | .std _ => some .std
  | .euVhf2 _ => some .euVhf2
  | .rttyRu _ => some .rttyRu
  | .nonstd _ => some .nonstd
  | .euVhf5 _ => some .euVhf5
  | .other => none

/-- The type the type bits stand for; `n3` counts only under `i3 = 0`. -/
def typeOfBits (i3 n3 : UInt64) : Option PayloadType :=
  if i3 = 0 then
    if n3 = 0 then some .freeText
    else if n3 = 1 then some .dxpedition
    else if n3 = 3 ∨ n3 = 4 then some .fieldDay
    else if n3 = 5 then some .telemetry
    else none
  else if i3 = 1 then some .std
  else if i3 = 2 then some .euVhf2
  else if i3 = 3 then some .rttyRu
  else if i3 = 4 then some .nonstd
  else if i3 = 5 then some .euVhf5
  else none

/-- A message of fields, each with an encoder of its own. -/
def Payload.Structured : Payload → Prop
  | .freeText _ => False
  | .telemetry _ => False
  | .other => False
  | _ => True

/-- The type bits of a layout say which type it is. -/
theorem typeOfBits_layout {p : Payload} (hp : p.Structured) {out : Vector UInt8 10}
    (h : ∀ f ∈ layout p, unpackBits out f.pos f.width = f.value) :
    typeOfBits (unpackBits out 74 3) (unpackBits out 71 3) = p.type := by
  have hi3 : ∀ v, (⟨74, 3, v⟩ : Field) ∈ layout p → unpackBits out 74 3 = v := fun v hv => h _ hv
  have hn3 : ∀ v, (⟨71, 3, v⟩ : Field) ∈ layout p → unpackBits out 71 3 = v := fun v hv => h _ hv
  cases p with
  | freeText p => exact absurd hp (by simp [Payload.Structured])
  | dxpedition p => rw [hi3 0 (by simp [layout]), hn3 1 (by simp [layout])]; rfl
  | fieldDay p =>
      rw [hi3 0 (by simp [layout]), hn3 (if p.transmitterCount > 16 then 4 else 3) (by simp [layout])]
      split <;> rfl
  | telemetry p => exact absurd hp (by simp [Payload.Structured])
  | std p => rw [hi3 1 (by simp [layout])]; rfl
  | euVhf2 p => rw [hi3 2 (by simp [layout])]; rfl
  | rttyRu p => rw [hi3 3 (by simp [layout])]; rfl
  | nonstd p => rw [hi3 4 (by simp [layout])]; rfl
  | euVhf5 p => rw [hi3 5 (by simp [layout])]; rfl
  | other => exact absurd hp (by simp [Payload.Structured])

/-- **A structured message is packed field by field.** Whatever the output buffer held, the code
stores into its ten bytes only, and each field read back at its place is what its encoder returned.
The type bits tell the type, so messages of two types are never the same ten bytes, and the last
three bits are 0. -/
theorem structured_payload {p : Payload} (hp : p.Structured) (hh : p.HashesFit)
    (output : Vector UInt8 10) :
    ∃ out, encodeFtxPayload p output = .ok out ∧
      (∀ f ∈ layout p, unpackBits out f.pos f.width = f.value) ∧
      typeOfBits (unpackBits out 74 3) (unpackBits out 71 3) = p.type ∧
      (∀ q : Payload, q.Structured → q.HashesFit → ∀ previous,
        encodeFtxPayload q previous = .ok out → q.type = p.type) ∧
      unpackBits out 77 3 = 0 := by
  obtain ⟨out, hout, hfields, -, hrest⟩ := encode_spec hh output
  have htype := typeOfBits_layout hp hfields
  refine ⟨out, hout, hfields, htype, ?_, ?_⟩
  · intro q hq hqh previous hqout
    -- the same bytes have the same type bits
    obtain ⟨out', hout', hqfields, -, -⟩ := encode_spec hqh previous
    rw [hqout] at hout'
    cases hout'
    rw [← typeOfBits_layout hq hqfields, htype]
  · refine unpackBits_eq (by decide) (by decide) ?_
    intro k hk
    rw [hrest _ (runs_spare p (by omega)), UInt64.toNat_zero, Nat.zero_testBit]

/-- A message from a hashed callsign, in a buffer that was all ones. -/
theorem structured_payload_hash :
    let p : Payload := .std ⟨.hash22 4194303, true, .cq, false, true, .rr73⟩
    ∃ out, encodeFtxPayload p (Vector.replicate 10 0xFF) = .ok out ∧
      (∀ f ∈ layout p, unpackBits out f.pos f.width = f.value) ∧
      typeOfBits (unpackBits out 74 3) (unpackBits out 71 3) = some .std ∧
      (∀ q : Payload, q.Structured → q.HashesFit → ∀ previous,
        encodeFtxPayload q previous = .ok out → q.type = some .std) ∧
      unpackBits out 77 3 = 0 :=
  @structured_payload (.std ⟨.hash22 4194303, true, .cq, false, true, .rr73⟩) trivial
    ⟨show (4194303 : UInt32).toNat < 1 <<< 22 by decide, trivial⟩ _

end MiniHF.Ftx
