import MiniHF.Modes.ContentProof
import MiniHF.Modes.LossProof

/-!
# Which messages are the same ten bytes

A message has one of nine types, and each of its fields is meant to hold something.
`Payload.Same` says when two messages mean the same, without a word of codes and bits.
Among messages that hold what they are meant to, it is exactly then that
`encode_ftx_payload` makes the same bytes of them.

The bytes have the layout of each of the two messages. So they tell the type first, with
it the places of the fields, and then the value of every field; what a value tells is
`ContentProof`. The two types that are one number lose its last bit.
-/

namespace MiniHF.Ftx

open Buffer

/-! ## What a message is meant to hold -/

/-- Every field holds what it is meant to. -/
def Payload.WellFormed : Payload → Prop
  | .freeText p => InAlphabet p.text.chars
  | .dxpedition p =>
      p.c28_0.Token ∧ p.c28_1.Token ∧ p.h10.toNat < 1 <<< 10 ∧ -30 ≤ p.r5.toInt ∧ p.r5.toInt ≤ 32
  | .fieldDay p =>
      p.c28_0.Token ∧ p.c28_1.Token ∧ p.n4.toNat < 1 <<< 4 ∧ p.k3 ≠ .other ∧ SectionKnown p.S7.chars
  | .telemetry _ => True
  | .std p => p.c28_0.Token ∧ p.c28_1.Token ∧ p.g15.Sound
  | .euVhf2 p => p.c28_0.Token ∧ p.c28_1.Token ∧ p.g15.Sound
  | .rttyRu p =>
      p.c28_0.Token ∧ p.c28_1.Token ∧ (2 ≤ p.r3.toNat ∧ p.r3.toNat ≤ 9) ∧ p.s13.Known
  | .nonstd p => p.h12.toNat < 1 <<< 12 ∧ FullCallsign p.c58.chars ∧ p.r2 ≠ .other
  | .euVhf5 p =>
      p.h12.toNat < 1 <<< 12 ∧ p.h22.toNat < 1 <<< 22 ∧ (2 ≤ p.r3.toNat ∧ p.r3.toNat ≤ 9)
        ∧ p.s11.toNat < 1 <<< 11 ∧ SixGrid p.g25.chars
  | .other => False

/-- The two messages mean the same. Of a text the last character counts only up to the last bit of
its place in the alphabet, and of a number everything but its last bit. -/
def Payload.Same : Payload → Payload → Prop
  | .freeText p, .freeText q =>
      SameText p.text.chars.dropLast q.text.chars.dropLast
        ∧ f71Digit (lastChar p.text.chars) / 2 = f71Digit (lastChar q.text.chars) / 2
  | .dxpedition p, .dxpedition q =>
      p.c28_0.SameToken q.c28_0 ∧ p.c28_1.SameToken q.c28_1 ∧ p.h10 = q.h10
        ∧ (p.r5.toInt + 30) / 2 = (q.r5.toInt + 30) / 2
  | .fieldDay p, .fieldDay q =>
      p.c28_0.SameToken q.c28_0 ∧ p.c28_1.SameToken q.c28_1 ∧ p.R1 = q.R1 ∧ p.n4 = q.n4
        ∧ p.k3 = q.k3 ∧ p.S7.chars.map upper = q.S7.chars.map upper
        ∧ (p.transmitterCount > 16 ↔ q.transmitterCount > 16)
  | .telemetry p, .telemetry q =>
      Bits.beValue p.data.toList / 2 = Bits.beValue q.data.toList / 2
  | .std p, .std q =>
      p.c28_0.SameToken q.c28_0 ∧ p.roverSuffix0 = q.roverSuffix0 ∧ p.c28_1.SameToken q.c28_1
        ∧ p.roverSuffix1 = q.roverSuffix1 ∧ p.R1 = q.R1 ∧ p.g15 = q.g15
  | .euVhf2 p, .euVhf2 q =>
      p.c28_0.SameToken q.c28_0 ∧ p.pSuffix0 = q.pSuffix0 ∧ p.c28_1.SameToken q.c28_1
        ∧ p.pSuffix1 = q.pSuffix1 ∧ p.R1 = q.R1 ∧ p.g15 = q.g15
  | .rttyRu p, .rttyRu q =>
      p.t1 = q.t1 ∧ p.c28_0.SameToken q.c28_0 ∧ p.c28_1.SameToken q.c28_1 ∧ p.R1 = q.R1
        ∧ p.r3 = q.r3 ∧ p.s13.Same q.s13
  | .nonstd p, .nonstd q =>
      p.h12 = q.h12 ∧ p.c58.chars.map upper = q.c58.chars.map upper ∧ p.h1 = q.h1 ∧ p.r2 = q.r2
        ∧ p.c1 = q.c1
  | .euVhf5 p, .euVhf5 q =>
      p.h12 = q.h12 ∧ p.h22 = q.h22 ∧ p.R1 = q.R1 ∧ p.r3 = q.r3 ∧ p.s11 = q.s11
        ∧ p.g25.chars = q.g25.chars
  | _, _ => False

theorem Payload.Same.type {p q : Payload} (h : p.Same q) : p.type = q.type := by
  cases p <;> cases q <;> first
    | rfl
    | exact h.elim

theorem Payload.WellFormed.hashesFit {p : Payload} (h : p.WellFormed) : p.HashesFit := by
  cases p with
  | dxpedition p | fieldDay p | std p | euVhf2 p | rttyRu p =>
      exact ⟨h.1.hashFits, h.2.1.hashFits⟩
  | _ => trivial

/-! ## The bytes tell the type and the fields -/

/-- The places of the fields. -/
def shape (p : Payload) : List (Nat × Nat) := (layout p).map fun f => (f.pos, f.width)

theorem shape_type {p q : Payload} (h : p.type = q.type) : shape p = shape q := by
  cases p <;> cases q <;> first
    | rfl
    | cases h

/-- A layout is its places and what stands there. -/
theorem layout_read {p : Payload} {out : Vector UInt8 10}
    (h : ∀ f ∈ layout p, unpackBits out f.pos f.width = f.value) :
    layout p = (shape p).map fun s => ⟨s.1, s.2, unpackBits out s.1 s.2⟩ := by
  rw [shape, List.map_map]
  refine (List.map_id _).symm.trans (List.map_congr_left fun f hf => ?_)
  show f = ⟨f.pos, f.width, unpackBits out f.pos f.width⟩
  rw [h f hf]

/-- The type bits say which type it is, of texts and numbers, too. -/
theorem type_read {p : Payload} (hp : p.WellFormed) {out : Vector UInt8 10}
    (h : ∀ f ∈ layout p, unpackBits out f.pos f.width = f.value) :
    typeOfBits (unpackBits out 74 3) (unpackBits out 71 3) = p.type := by
  have hread : ∀ v w : UInt64, (⟨74, 3, v⟩ : Field) ∈ layout p → (⟨71, 3, w⟩ : Field) ∈ layout p →
      typeOfBits (unpackBits out 74 3) (unpackBits out 71 3) = typeOfBits v w := by
    intro v w hv hw
    rw [h _ hv, h _ hw]
  by_cases hps : p.Structured
  · exact typeOfBits_layout hps h
  cases p with
  | freeText p => exact hread 0 0 List.mem_cons_self (List.mem_cons_of_mem _ List.mem_cons_self)
  | telemetry p => exact hread 0 5 List.mem_cons_self (List.mem_cons_of_mem _ List.mem_cons_self)
  | other => exact hp.elim
  | _ => exact absurd trivial hps

/-- **Messages of the same bytes have the same type and the same fields.** -/
theorem same_bytes {p q : Payload} (hp : p.WellFormed) (hq : q.WellFormed)
    {output previous : Vector UInt8 10}
    (h : encodeFtxPayload p output = encodeFtxPayload q previous) :
    p.type = q.type ∧ layout p = layout q := by
  obtain ⟨out, hout, hfields, -, -⟩ := encode_spec hp.hashesFit output
  obtain ⟨out', hout', hfields', -, -⟩ := encode_spec hq.hashesFit previous
  rw [hout, hout'] at h
  cases h
  have htype : p.type = q.type := (type_read hp hfields).symm.trans (type_read hq hfields')
  refine ⟨htype, ?_⟩
  rw [layout_read hfields, layout_read hfields', shape_type htype]

/-- **Structured messages are the same bytes exactly if their fields are.** -/
theorem structured_same_iff {p q : Payload} (hp : p.WellFormed) (hq : q.WellFormed)
    (hps : p.Structured) (hqs : q.Structured) (output previous : Vector UInt8 10) :
    encodeFtxPayload p output = encodeFtxPayload q previous ↔ layout p = layout q := by
  have hnumber : ∀ {p : Payload}, p.Structured → number p = [] := by
    intro p hp
    cases p with
    | freeText p => exact hp.elim
    | telemetry p => exact hp.elim
    | _ => rfl
  refine ⟨fun h => (same_bytes hp hq h).2, fun h => ?_⟩
  rw [encode_eq_runs, encode_eq_runs, runs, runs, hnumber hps, hnumber hqs, h]

/-! ## Fields that are told apart one by one -/

section Fields

variable {pos width : Nat} {fs gs : List Field} {P : Prop}

/-- Two layouts, their first fields apart. -/
theorem field_iff {v w : UInt64} {Q : Prop} (hfirst : v = w ↔ P) (hrest : fs = gs ↔ Q) :
    ((⟨pos, width, v⟩ : Field) :: fs = ⟨pos, width, w⟩ :: gs) ↔ P ∧ Q := by
  rw [List.cons.injEq, Field.mk.injEq, hfirst, hrest]
  exact and_congr_left' (by rw [eq_self_iff_true, eq_self_iff_true, true_and, true_and])

/-- The last field, and what is the same behind it. -/
theorem last_iff {v w : UInt64} (h : v = w ↔ P) :
    ((⟨pos, width, v⟩ : Field) :: fs = ⟨pos, width, w⟩ :: fs) ↔ P :=
  (field_iff h (iff_of_true rfl trivial)).trans (and_iff_left trivial)

/-- A mask takes nothing from a number that has room. -/
theorem mask_eq (n : Nat) {k : Nat} (h : n < 1 <<< k) : n &&& (1 <<< k - 1) = n := by
  rw [Nat.one_shiftLeft] at h ⊢
  rw [Nat.and_two_pow_sub_one_eq_mod, Nat.mod_eq_of_lt h]

theorem mask8_iff {k : Nat} {mask a b : UInt8} (hmask : mask.toNat = 1 <<< k - 1)
    (ha : a.toNat < 1 <<< k) (hb : b.toNat < 1 <<< k) :
    (a &&& mask).toUInt64 = (b &&& mask).toUInt64 ↔ a = b := by
  have heq : ∀ x : UInt8, x.toNat < 1 <<< k → x &&& mask = x := fun x hx => by
    rw [← UInt8.toNat_inj, UInt8.toNat_and, hmask, mask_eq x.toNat hx]
  rw [heq a ha, heq b hb, UInt8.toUInt64_inj]

theorem mask16_iff {k : Nat} {mask a b : UInt16} (hmask : mask.toNat = 1 <<< k - 1)
    (ha : a.toNat < 1 <<< k) (hb : b.toNat < 1 <<< k) :
    (a &&& mask).toUInt64 = (b &&& mask).toUInt64 ↔ a = b := by
  have heq : ∀ x : UInt16, x.toNat < 1 <<< k → x &&& mask = x := fun x hx => by
    rw [← UInt16.toNat_inj, UInt16.toNat_and, hmask, mask_eq x.toNat hx]
  rw [heq a ha, heq b hb, UInt16.toUInt64_inj]

theorem mask32_iff {k : Nat} {mask a b : UInt32} (hmask : mask.toNat = 1 <<< k - 1)
    (ha : a.toNat < 1 <<< k) (hb : b.toNat < 1 <<< k) :
    (a &&& mask).toUInt64 = (b &&& mask).toUInt64 ↔ a = b := by
  have heq : ∀ x : UInt32, x.toNat < 1 <<< k → x &&& mask = x := fun x hx => by
    rw [← UInt32.toNat_inj, UInt32.toNat_and, hmask, mask_eq x.toNat hx]
  rw [heq a ha, heq b hb, UInt32.toUInt64_inj]

theorem c28_iff {a b : C28} (ha : a.Token) (hb : b.Token) :
    (encodeC28 a).toUInt64 = (encodeC28 b).toUInt64 ↔ a.SameToken b :=
  UInt32.toUInt64_inj.trans (encodeC28_iff ha hb)

theorem g15_iff {a b : G15} (ha : a.Sound) (hb : b.Sound) :
    (encodeG15 a).toUInt64 = (encodeG15 b).toUInt64 ↔ a = b :=
  UInt16.toUInt64_inj.trans ⟨encodeG15_inj ha hb, congrArg encodeG15⟩

theorem r3_iff {a b : UInt8} (ha : 2 ≤ a.toNat ∧ a.toNat ≤ 9) (hb : 2 ≤ b.toNat ∧ b.toNat ≤ 9) :
    (encodeR3 a.toNat).toUInt64 = (encodeR3 b.toNat).toUInt64 ↔ a = b :=
  UInt8.toUInt64_inj.trans (encodeR3_iff ha hb)

end Fields

/-! ## The fields of each type -/

theorem dxpedition_same {p q : Dxpedition} (hp : (Payload.dxpedition p).WellFormed)
    (hq : (Payload.dxpedition q).WellFormed) :
    layout (.dxpedition p) = layout (.dxpedition q)
      ↔ (Payload.dxpedition p).Same (.dxpedition q) := by
  obtain ⟨h₀, h₁, hh, hr⟩ := hp
  obtain ⟨h₀', h₁', hh', hr'⟩ := hq
  exact field_iff (c28_iff h₀ h₀') (field_iff (c28_iff h₁ h₁') (field_iff (mask16_iff rfl hh hh')
    (last_iff (UInt8.toUInt64_inj.trans (encodeR5_iff hr hr')))))

theorem fieldDay_same {p q : FieldDay} (hp : (Payload.fieldDay p).WellFormed)
    (hq : (Payload.fieldDay q).WellFormed) :
    layout (.fieldDay p) = layout (.fieldDay q) ↔ (Payload.fieldDay p).Same (.fieldDay q) := by
  obtain ⟨h₀, h₁, hn, hk, hs⟩ := hp
  obtain ⟨h₀', h₁', hn', hk', hs'⟩ := hq
  have hcount : ((if p.transmitterCount > 16 then 4 else 3 : UInt64)
      = if q.transmitterCount > 16 then 4 else 3)
      ↔ (p.transmitterCount > 16 ↔ q.transmitterCount > 16) := by
    split <;> split <;> simp [*]
  refine field_iff (c28_iff h₀ h₀') (field_iff (c28_iff h₁ h₁') (field_iff flag_iff
    (field_iff (mask8_iff rfl hn hn') (field_iff (UInt8.toUInt64_inj.trans (encodeK3_iff hk hk'))
      (field_iff (UInt8.toUInt64_inj.trans (sectionValue_iff hs hs')) ?_)))))
  exact (field_iff (iff_of_true rfl trivial) (last_iff hcount)).trans (and_iff_right trivial)

theorem std_same {p q : Std} (hp : (Payload.std p).WellFormed) (hq : (Payload.std q).WellFormed) :
    layout (.std p) = layout (.std q) ↔ (Payload.std p).Same (.std q) := by
  obtain ⟨h₀, h₁, hg⟩ := hp
  obtain ⟨h₀', h₁', hg'⟩ := hq
  exact field_iff (c28_iff h₀ h₀') (field_iff flag_iff (field_iff (c28_iff h₁ h₁')
    (field_iff flag_iff (field_iff flag_iff (last_iff (g15_iff hg hg'))))))

theorem euVhf2_same {p q : EuVhf2} (hp : (Payload.euVhf2 p).WellFormed)
    (hq : (Payload.euVhf2 q).WellFormed) :
    layout (.euVhf2 p) = layout (.euVhf2 q) ↔ (Payload.euVhf2 p).Same (.euVhf2 q) := by
  obtain ⟨h₀, h₁, hg⟩ := hp
  obtain ⟨h₀', h₁', hg'⟩ := hq
  exact field_iff (c28_iff h₀ h₀') (field_iff flag_iff (field_iff (c28_iff h₁ h₁')
    (field_iff flag_iff (field_iff flag_iff (last_iff (g15_iff hg hg'))))))

theorem rttyRu_same {p q : RttyRu} (hp : (Payload.rttyRu p).WellFormed)
    (hq : (Payload.rttyRu q).WellFormed) :
    layout (.rttyRu p) = layout (.rttyRu q) ↔ (Payload.rttyRu p).Same (.rttyRu q) := by
  obtain ⟨h₀, h₁, hr, hs⟩ := hp
  obtain ⟨h₀', h₁', hr', hs'⟩ := hq
  exact field_iff flag_iff (field_iff (c28_iff h₀ h₀') (field_iff (c28_iff h₁ h₁')
    (field_iff flag_iff (field_iff (r3_iff hr hr')
      (last_iff (UInt16.toUInt64_inj.trans (encodeS13_iff hs hs')))))))

theorem nonstd_same {p q : Nonstd} (hp : (Payload.nonstd p).WellFormed)
    (hq : (Payload.nonstd q).WellFormed) :
    layout (.nonstd p) = layout (.nonstd q) ↔ (Payload.nonstd p).Same (.nonstd q) := by
  obtain ⟨hh, hc, hr⟩ := hp
  obtain ⟨hh', hc', hr'⟩ := hq
  exact field_iff (mask16_iff rfl hh hh') (field_iff (encodeC58_iff hc hc') (field_iff flag_iff
    (field_iff (UInt8.toUInt64_inj.trans (encodeR2_iff hr hr')) (last_iff flag_iff))))

theorem euVhf5_same {p q : EuVhf5} (hp : (Payload.euVhf5 p).WellFormed)
    (hq : (Payload.euVhf5 q).WellFormed) :
    layout (.euVhf5 p) = layout (.euVhf5 q) ↔ (Payload.euVhf5 p).Same (.euVhf5 q) := by
  obtain ⟨h₁₂, h₂₂, hr, hs, hg⟩ := hp
  obtain ⟨h₁₂', h₂₂', hr', hs', hg'⟩ := hq
  exact field_iff (mask16_iff rfl h₁₂ h₁₂') (field_iff (mask32_iff rfl h₂₂ h₂₂') (field_iff flag_iff
    (field_iff (r3_iff hr hr') (field_iff (mask16_iff rfl hs hs')
      (last_iff (UInt32.toUInt64_inj.trans ⟨encodeG25_inj hg hg', congrArg encodeG25⟩))))))

/-! ## The messages -/

/--
**Messages are the same ten bytes exactly if they mean the same.**

That holds for any two messages, of one type or of two, whose fields hold what they are
meant to, whatever the buffers held before.
-/
theorem messages_same {p q : Payload} (hp : p.WellFormed) (hq : q.WellFormed)
    (output previous : Vector UInt8 10) :
    encodeFtxPayload p output = encodeFtxPayload q previous ↔ p.Same q := by
  by_cases htype : p.type = q.type
  case neg => exact iff_of_false (fun h => htype (same_bytes hp hq h).1) fun h => htype h.type
  have hfields := fun hps hqs => structured_same_iff hp hq hps hqs output previous
  cases p with
  | other => exact hp.elim
  | freeText p =>
      cases q with
      | freeText q => exact freeText_same_iff hp hq output previous
      | _ => cases htype
  | telemetry p =>
      cases q with
      | telemetry q =>
          have hfits : (Payload.telemetry p).HashesFit ∧ (Payload.telemetry q).HashesFit :=
            ⟨trivial, trivial⟩
          exact @same_payload (.telemetry p) (.telemetry q) _ _ rfl rfl rfl hfits.1 hfits.2
            Vector.length_toList Vector.length_toList output previous
      | _ => cases htype
  | dxpedition p =>
      cases q with
      | dxpedition q => exact (hfields trivial trivial).trans (dxpedition_same hp hq)
      | _ => cases htype
  | fieldDay p =>
      cases q with
      | fieldDay q => exact (hfields trivial trivial).trans (fieldDay_same hp hq)
      | _ => cases htype
  | std p =>
      cases q with
      | std q => exact (hfields trivial trivial).trans (std_same hp hq)
      | _ => cases htype
  | euVhf2 p =>
      cases q with
      | euVhf2 q => exact (hfields trivial trivial).trans (euVhf2_same hp hq)
      | _ => cases htype
  | rttyRu p =>
      cases q with
      | rttyRu q => exact (hfields trivial trivial).trans (rttyRu_same hp hq)
      | _ => cases htype
  | nonstd p =>
      cases q with
      | nonstd q => exact (hfields trivial trivial).trans (nonstd_same hp hq)
      | _ => cases htype
  | euVhf5 p =>
      cases q with
      | euVhf5 q => exact (hfields trivial trivial).trans (euVhf5_same hp hq)
      | _ => cases htype

/-- A call to all in two spellings, in buffers that held different things. -/
theorem messages_same_spelling :
    let call (s : String) (h : (literal s).all (· != 0) = true) (hlen : (literal s).length ≤ 6) :=
      Payload.std ⟨.cq, false, .callsign (.ofLiteral s h hlen), false, false,
        .grid (.ofLiteral "FN42" rfl (by decide))⟩
    encodeFtxPayload (call "k1abc" rfl (by decide)) (Vector.replicate 10 0)
      = encodeFtxPayload (call "K1ABC" rfl (by decide)) (Vector.replicate 10 0xFF) := by
  intro call
  have hgrid : (G15.grid (.ofLiteral "FN42" rfl (by decide))).Sound :=
    ⟨⟨by decide, by decide, by decide, by decide, by decide⟩, by decide, by decide⟩
  have hupper : StandardCall (literal "K1ABC") :=
    ⟨literal "K", 0x31, literal "ABC", rfl, Or.inl rfl, List.all_eq_true.mp rfl, rfl, by decide,
      List.all_eq_true.mp rfl⟩
  refine (messages_same (p := call "k1abc" rfl (by decide)) (q := call "K1ABC" rfl (by decide))
    ⟨trivial, standardCall_k1abc, hgrid⟩ ⟨trivial, hupper, hgrid⟩ _ _).mpr ?_
  have hspelling : (literal "k1abc").map upper = (literal "K1ABC").map upper := by decide
  exact ⟨trivial, rfl, hspelling, rfl, rfl, rfl⟩

end MiniHF.Ftx
