import Mathlib.Data.Rat.Floor
import Mathlib.Tactic.FieldSimp
import Mathlib.Tactic.LinearCombination
import MiniHF.Lib.Bits
import MiniHF.Radio.Si5351aPll
import MiniHF.Radio.Si5351aProof

/-!
# What the divider registers say

The chip takes three numbers from the eight bytes, `P1` of 18 bits and `P2` and `P3`
of 20, and divides by `(P1 + 512 + P2 / P3) / 128`. The source splits its own three
numbers over the bytes and cuts off what is beyond those bits.

`P3` is `c`, and `P2` is what `128 * b` leaves over when it is divided by `c`, so
`P2` is whole when `P3` is. `P1` has the quotient, and that grows with `b / c`. So
what is written is what is meant exactly if `c` has 20 bits and the divider is below
2052, the first one that is too large for `P1`.
-/

namespace MiniHF.Si5351a

/-! ## The chip's side -/

/-- The numbers the chip divides by. -/
structure DividerParams where
  p1 : Nat
  p2 : Nat
  p3 : Nat
deriving DecidableEq, Repr

/-- How the chip reads its eight registers. -/
def readDivider : List UInt8 → Option DividerParams
  | [r₀, r₁, r₂, r₃, r₄, r₅, r₆, r₇] => some
      { p1 := r₂.toNat % 4 * 65536 + r₃.toNat * 256 + r₄.toNat
        p2 := r₅.toNat % 16 * 65536 + r₆.toNat * 256 + r₇.toNat
        p3 := r₅.toNat / 16 * 65536 + r₀.toNat * 256 + r₁.toNat }
  | _ => none

/-- The divider. -/
def DividerParams.ratio (p : DividerParams) : Rat := ((p.p1 : Rat) + 512 + p.p2 / p.p3) / 128

/-- The numbers stand for `a + b / c`. -/
structure DividerParams.Denotes (p : DividerParams) (a b c : UInt32) : Prop where
  p3 : p.p3 = c.toNat
  p2 : p.p2 < p.p3
  sum : (p.p1 + 512) * p.p3 + p.p2 = 128 * (a.toNat * c.toNat + b.toNat)
  ratio : p.ratio = a.toNat + b.toNat / c.toNat

theorem ratio_of_sum {p : DividerParams} {a b c : Nat} (hc : 0 < c) (hp3 : p.p3 = c)
    (hsum : (p.p1 + 512) * p.p3 + p.p2 = 128 * (a * c + b)) :
    p.ratio = a + b / c := by
  have hc' : (c : Rat) ≠ 0 := Nat.cast_ne_zero.mpr hc.ne'
  have hsum' : ((p.p1 : Rat) + 512) * c + p.p2 = 128 * (a * c + b) := by
    rw [hp3] at hsum
    exact_mod_cast hsum
  unfold DividerParams.ratio
  rw [hp3]
  field_simp
  linear_combination hsum'

/-! ## The bytes -/

section Bytes

variable (v w : UInt32)

theorem byte0 : (v &&& 0x000000FF).toUInt8.toNat = v.toNat % 256 := by
  have hmask : (0x000000FF : UInt32).toNat = 1 <<< 8 - 1 := rfl
  rw [UInt32.toNat_toUInt8, UInt32.toNat_and, hmask, Nat.shiftLeft_eq, Nat.one_mul,
    Nat.and_two_pow_sub_one_eq_mod]
  omega

theorem byte1 : ((v &&& 0x0000FF00) >>> 8).toUInt8.toNat = v.toNat / 256 % 256 := by
  have hfield : ((v &&& 0x0000FF00) >>> 8).toNat = v.toNat / 256 % 256 :=
    @Bits.masked_field v 0x0000FF00 8 8 8 (by decide) (by decide) rfl
  rw [UInt32.toNat_toUInt8, hfield]
  omega

theorem byte2 : ((v &&& 0x00030000) >>> 16).toUInt8.toNat = v.toNat / 65536 % 4 := by
  have hfield : ((v &&& 0x00030000) >>> 16).toNat = v.toNat / 65536 % 4 :=
    @Bits.masked_field v 0x00030000 16 2 16 (by decide) (by decide) rfl
  rw [UInt32.toNat_toUInt8, hfield]
  omega

/-- The byte that has four bits of either number. -/
theorem byte_shared :
    (((v &&& 0x000F0000) >>> 12) ||| ((w &&& 0x000F0000) >>> 16)).toUInt8.toNat
      = v.toNat / 65536 % 16 * 16 + w.toNat / 65536 % 16 := by
  have hhigh : ((v &&& 0x000F0000) >>> 12).toNat = (v.toNat / 65536 % 16) <<< 4 :=
    @Bits.masked_field v 0x000F0000 12 4 16 (by decide) (by decide) rfl
  have hlow : ((w &&& 0x000F0000) >>> 16).toNat = w.toNat / 65536 % 16 :=
    @Bits.masked_field w 0x000F0000 16 4 16 (by decide) (by decide) rfl
  rw [UInt32.toNat_toUInt8, UInt32.toNat_or, hlow, hhigh,
    ← Nat.shiftLeft_add_eq_or_of_lt (Nat.mod_lt _ (by decide)), Nat.shiftLeft_eq]
  omega

end Bytes

/-! ## The source's side -/

/-- `floor(128 * ((double)b / (double)c))` is what it says. -/
def Exact128 (floor128 : UInt32 → UInt32 → Nat) : Prop :=
  ∀ b c, floor128 b c = 128 * b.toNat / c.toNat

/-- A divider that fits the registers. -/
def Fits (a b c : UInt32) : Prop :=
  c.toNat < 1048576 ∧ a.toNat * c.toNat + b.toNat < 2052 * c.toNat

section Source

variable {floor128 : UInt32 → UInt32 → Nat} {a b c : UInt32}

/-- What the chip reads from the bytes: each number up to its bits. -/
theorem readDivider_bytes (floor128 : UInt32 → UInt32 → Nat) (a b c : UInt32) :
    readDivider (dividerBytes floor128 a b c) = some
      { p1 := (dividerP1 floor128 a b c).toNat % 262144
        p2 := (dividerP2 floor128 b c).toNat % 1048576
        p3 := c.toNat % 1048576 } := by
  unfold dividerBytes readDivider
  dsimp only
  rw [byte0, byte0, byte0, byte1, byte1, byte1, byte2, byte_shared, Option.some.injEq,
    DividerParams.mk.injEq]
  refine ⟨?_, ?_, ?_⟩ <;> omega

theorem mul128 {v : UInt32} (h : v.toNat ≤ 1048574) : (128 * v).toNat = 128 * v.toNat := by
  have h128 : (128 : UInt32).toNat = 128 := rfl
  rw [UInt32.toNat_mul, h128]
  omega

theorem dividerP1_toNat (hfloor : Exact128 floor128) (ha : 6 ≤ a.toNat ∧ a.toNat ≤ 1800)
    (hb : b.toNat ≤ 1048574) :
    (dividerP1 floor128 a b c).toNat = 128 * a.toNat + 128 * b.toNat / c.toNat - 512 := by
  have hmul := @mul128 a (by omega)
  unfold dividerP1
  by_cases hzero : b = 0
  · have h512 : (512 : UInt32).toNat = 512 := rfl
    rw [if_pos hzero, hzero, UInt32.toNat_sub_of_le _ _ (by rw [UInt32.le_iff_toNat_le]; omega), hmul,
      h512, UInt32.toNat_zero, Nat.mul_zero, Nat.zero_div, Nat.add_zero]
  · have hle : 128 * b.toNat / c.toNat ≤ 128 * b.toNat := Nat.div_le_self _ _
    rw [if_neg hzero, hmul, hfloor]
    generalize 128 * b.toNat / c.toNat = q at hle
    rw [show ((128 * a.toNat : Nat) : Int) + (q : Int) - 512
      = ((128 * a.toNat + q - 512 : Nat) : Int) by omega]
    exact Bits.toNat_ofInt_of_lt (by omega)

/-- The second number is a rest. -/
theorem dividerP2_toNat (hfloor : Exact128 floor128) (hb : b.toNat ≤ 1048574) :
    (dividerP2 floor128 b c).toNat = 128 * b.toNat % c.toNat := by
  unfold dividerP2
  by_cases hzero : b = 0
  · rw [if_pos hzero, hzero]
    exact (Nat.zero_mod _).symm
  · have hrest : ((128 * b.toNat : Nat) : Int) - (c.toNat : Int) * ((128 * b.toNat / c.toNat : Nat) : Int)
        = ((128 * b.toNat % c.toNat : Nat) : Int) := by
      have hsplit := Nat.div_add_mod (128 * b.toNat) c.toNat
      rw [← Int.natCast_mul]
      omega
    have hle : 128 * b.toNat % c.toNat ≤ 128 * b.toNat := Nat.mod_le _ _
    rw [if_neg hzero, mul128 hb, hfloor, hrest]
    exact Bits.toNat_ofInt_of_lt (by omega)

/-- **When the bytes say what is meant.** -/
theorem denotes_iff (hfloor : Exact128 floor128) (ha : 6 ≤ a.toNat ∧ a.toNat ≤ 1800)
    (hb : b.toNat ≤ 1048574) (hc : 0 < c.toNat) :
    (∃ p, readDivider (dividerBytes floor128 a b c) = some p ∧ p.Denotes a b c) ↔ Fits a b c := by
  have hp1 := @dividerP1_toNat floor128 a b c hfloor ha hb
  have hp2 := @dividerP2_toNat floor128 b c hfloor hb
  have hrest : 128 * b.toNat % c.toNat < c.toNat := Nat.mod_lt _ hc
  have hsplit := Nat.div_add_mod (128 * b.toNat) c.toNat
  have hdiv := @Nat.div_lt_iff_lt_mul c.toNat (128 * b.toNat) (262656 - 128 * a.toNat) hc
  rw [Nat.sub_mul, Nat.mul_assoc] at hdiv
  rw [readDivider_bytes, hp1, hp2]
  generalize 128 * b.toNat / c.toNat = q at hsplit hdiv
  -- the quotient goes into the first number if the divider is not too large
  have hbound : 128 * a.toNat + q - 512 < 262144 ↔
      a.toNat * c.toNat + b.toNat < 2052 * c.toNat := by
    omega
  have hwhole : (128 * a.toNat + q) * c.toNat + 128 * b.toNat % c.toNat
      = 128 * (a.toNat * c.toNat + b.toNat) := by
    rw [Nat.add_mul, Nat.mul_assoc, Nat.mul_comm q]
    omega
  constructor
  · rintro ⟨p, hp, hden⟩
    obtain rfl := Option.some.inj hp
    have hc20 : c.toNat < 1048576 := by
      have := hden.p3
      dsimp only at this
      omega
    refine ⟨hc20, hbound.mp ?_⟩
    have hsum := hden.sum
    dsimp only at hsum
    rw [Nat.mod_eq_of_lt hc20, Nat.mod_eq_of_lt (Nat.lt_trans hrest hc20), ← hwhole,
      Nat.add_right_cancel_iff] at hsum
    have hq := Nat.eq_of_mul_eq_mul_right hc hsum
    omega
  · rintro ⟨hc20, hlt⟩
    have hsum : ((128 * a.toNat + q - 512) % 262144 + 512) * (c.toNat % 1048576)
          + 128 * b.toNat % c.toNat % 1048576
        = 128 * (a.toNat * c.toNat + b.toNat) := by
      rw [Nat.mod_eq_of_lt (hbound.mpr hlt), Nat.mod_eq_of_lt hc20,
        Nat.mod_eq_of_lt (Nat.lt_trans hrest hc20), ← hwhole, Nat.sub_add_cancel (by omega)]
    have hp3 : c.toNat % 1048576 = c.toNat := Nat.mod_eq_of_lt hc20
    refine ⟨_, rfl, hp3, ?_, hsum, ratio_of_sum hc hp3 hsum⟩
    dsimp only
    rw [hp3, Nat.mod_eq_of_lt (Nat.lt_trans hrest hc20)]
    exact hrest

end Source

/-- The bytes stand for `a + b / c`. -/
def Says (bytes : List UInt8) (a b c : UInt32) : Prop :=
  ∃ p, readDivider bytes = some p ∧ p.Denotes a b c

/-- What the next message returns. -/
def busResult (d : Si5351a) : Int := d.results.headD 0

theorem i2cWrite_eq (d : Si5351a) (buf : List UInt8) :
    d.i2cWrite buf
      = (d.busResult, { d with results := d.results.tail, sent := d.sent ++ [buf] }) := by
  obtain ⟨pllaFreq, pllbFreq, results, sent⟩ := d
  cases results <;> rfl

/-- `si5351a_set_ms` starts with the bytes of the divider. -/
theorem setMs_writes (floor128 : UInt32 → UInt32 → Nat) (d : Si5351a) {ms : UInt8} {a b c : UInt32}
    {pll : UInt8} (h : MsArgs ms a b c pll) :
    ∃ rest, (d.setMs floor128 ms a b c pll).2.sent
      = d.sent ++ ((42 + ms * 8) :: dividerBytes floor128 a b c) :: rest := by
  unfold setMs
  rw [if_neg h.output, if_neg h.whole, if_neg h.fraction, if_neg h.denominator, if_neg h.knownPll]
  unfold writeMultiple
  rw [i2cWrite_eq]
  dsimp only
  split
  · exact ⟨[], rfl⟩
  · unfold writeReg
    rw [i2cWrite_sent]
    exact ⟨[[16 + ms, clkCtrl b pll]], List.append_assoc ..⟩

end MiniHF.Si5351a

namespace MiniHF.Si5351aPlls

open Si5351a

/-! ## Setting a PLL -/

/-- The arguments `si5351a_set_pll` takes. -/
structure PllArgs (a b c : UInt32) (pll : UInt8) : Prop where
  knownPll : ¬ (pll ≠ pllA ∧ pll ≠ pllB)
  whole : ¬ (a < 15 ∨ a > 90)
  fraction : ¬ b > 1048574
  denominator : c ≠ 0

/-- The range check, on numbers. -/
theorem pll_whole_range (a : UInt32) : (a < 15 ∨ a > 90) ↔ (a.toNat < 15 ∨ 90 < a.toNat) := by
  have h15 : (15 : UInt32).toNat = 15 := rfl
  have h90 : (90 : UInt32).toNat = 90 := rfl
  rw [UInt32.lt_iff_toNat_lt, gt_iff_lt, UInt32.lt_iff_toNat_lt, h15, h90]

/-- The registers of a PLL. -/
def pllBase (pll : UInt8) : UInt8 := if pll = pllA then 26 else 34

/-- A PLL is set up, at a frequency. -/
def remember (d : Si5351aPlls) (pll : UInt8) (freq : UInt32) : Si5351aPlls :=
  if pll = pllA then { d with pllaConfigured := true, pllaFreq := freq }
  else { d with pllbConfigured := true, pllbFreq := freq }

section Calls

variable (floor128 : UInt32 → UInt32 → Nat) (pllHz : UInt32 → UInt32 → UInt32 → UInt32 → UInt32)
variable {a b c : UInt32} {pll : UInt8}

/-- Other arguments change nothing. -/
theorem setPll_refuses (d : Si5351aPlls) (cfg : Si5351aConfig) (h : ¬ PllArgs a b c pll) :
    d.setPll floor128 pllHz cfg pll a b c = (-22, d) := by
  unfold setPll
  split
  · rfl
  split
  · rfl
  split
  · rfl
  split
  · rfl
  next hpll ha hb hc => exact absurd ⟨hpll, ha, hb, hc⟩ h

/-- **What setting a PLL does.** One message goes out, and the driver remembers the PLL if that
succeeds. -/
theorem setPll_eq (d : Si5351aPlls) (cfg : Si5351aConfig) (h : PllArgs a b c pll) :
    d.setPll floor128 pllHz cfg pll a b c =
      let sent := { d with
        results := d.results.tail
        sent := d.sent ++ [pllBase pll :: dividerBytes floor128 a b c] }
      if d.busResult ≠ 0 then (d.busResult, sent)
      else (0, remember sent pll (pllHz cfg.xtalFreq a b c)) := by
  unfold setPll
  rw [if_neg h.knownPll, if_neg h.whole, if_neg h.fraction, if_neg h.denominator]
  unfold writeMultiple remember
  rw [show (if pll = pllA then 26 else 34 : UInt8) = pllBase pll from rfl]
  dsimp only
  rw [i2cWrite_eq]
  dsimp only
  split
  · rfl
  · split <;> rfl

end Calls

/-! ## Dividers of either kind -/

/-- **When the registers are right.** Of all the dividers that the two functions take, exactly those
that fit the registers are what the bytes say. -/
theorem divider_registers {floor128 : UInt32 → UInt32 → Nat} (hfloor : Exact128 floor128)
    (pllHz : UInt32 → UInt32 → UInt32 → UInt32 → UInt32) (a b c : UInt32) :
    (∀ (d : Si5351aPlls) (cfg : Si5351aConfig) (pll : UInt8), PllArgs a b c pll →
      ∃ bytes rest, (d.setPll floor128 pllHz cfg pll a b c).2.sent
          = d.sent ++ (pllBase pll :: bytes) :: rest ∧ (Says bytes a b c ↔ Fits a b c)) ∧
    (∀ (d : Si5351a) (ms pll : UInt8), MsArgs ms a b c pll →
      ∃ bytes rest, (d.setMs floor128 ms a b c pll).2.sent
          = d.sent ++ ((42 + ms * 8) :: bytes) :: rest ∧ (Says bytes a b c ↔ Fits a b c)) := by
  have hmax : (1048574 : UInt32).toNat = 1048574 := rfl
  have hfraction : ¬ b > 1048574 → b.toNat ≤ 1048574 := by
    intro h
    rw [gt_iff_lt, UInt32.lt_iff_toNat_lt, hmax] at h
    omega
  have hdenominator : c ≠ 0 → 0 < c.toNat := by
    intro h
    exact Nat.pos_of_ne_zero fun h0 => h (UInt32.toNat_inj.mp h0)
  constructor
  · intro d cfg pll h
    have hwhole := h.whole
    rw [pll_whole_range] at hwhole
    refine ⟨dividerBytes floor128 a b c, [], ?_,
      denotes_iff hfloor ⟨by omega, by omega⟩ (hfraction h.fraction) (hdenominator h.denominator)⟩
    rw [setPll_eq floor128 pllHz d cfg h]
    unfold remember
    dsimp only
    split
    · rfl
    · split <;> rfl
  · intro d ms pll h
    have hwhole := h.whole
    rw [whole_range] at hwhole
    obtain ⟨rest, hsent⟩ := setMs_writes floor128 d h
    exact ⟨_, rest, hsent,
      denotes_iff hfloor ⟨by omega, by omega⟩ (hfraction h.fraction) (hdenominator h.denominator)⟩

/-- Whole-number arithmetic in place of floating point. -/
def wholeFloor128 (b c : UInt32) : Nat := 128 * b.toNat / c.toNat

theorem exact_wholeFloor128 : Exact128 wholeFloor128 := fun _ _ => rfl

/-- Whole-number arithmetic here, too. -/
def wholeHz (xtal a b c : UInt32) : UInt32 :=
  UInt32.ofNat (xtal.toNat * (a.toNat * c.toNat + b.toNat) / c.toNat)

/-- PLL A at 24.567213 times the crystal. -/
theorem divider_registers_plla :
    ∃ bytes rest, ((⟨⟨0, 0, [], []⟩, false, false⟩ : Si5351aPlls).setPll wholeFloor128 wholeHz
        ⟨25000000⟩ pllA 24 567213 1000000).2.sent = [] ++ (26 :: bytes) :: rest ∧
      Says bytes 24 567213 1000000 := by
  obtain ⟨bytes, rest, hsent, hiff⟩ :=
    (divider_registers exact_wholeFloor128 wholeHz 24 567213 1000000).1
      ⟨⟨0, 0, [], []⟩, false, false⟩ ⟨25000000⟩ pllA
      ⟨by decide, by decide, by decide, by decide⟩
  exact ⟨bytes, rest, hsent, hiff.mpr (by unfold Fits; decide)⟩

/-- **Not all of them do**: of a denominator of `2^20` nothing is left. -/
theorem divider_registers_cut :
    ¬ ∀ (floor128 : UInt32 → UInt32 → Nat), Exact128 floor128 → ∀ a b c : UInt32,
      (∀ (pllHz : UInt32 → UInt32 → UInt32 → UInt32 → UInt32) (d : Si5351aPlls) (cfg : Si5351aConfig)
          (pll : UInt8), PllArgs a b c pll →
        ∃ bytes rest, (d.setPll floor128 pllHz cfg pll a b c).2.sent
          = d.sent ++ (pllBase pll :: bytes) :: rest ∧ Says bytes a b c) ∧
      (∀ (d : Si5351a) (ms pll : UInt8), MsArgs ms a b c pll →
        ∃ bytes rest, (d.setMs floor128 ms a b c pll).2.sent
          = d.sent ++ ((42 + ms * 8) :: bytes) :: rest ∧ Says bytes a b c) := by
  intro h
  have hargs : MsArgs 0 15 0 1048576 pllA :=
    ⟨by decide, by decide, by decide, by decide, by decide⟩
  obtain ⟨bytes, rest, hsent, hsays⟩ :=
    (h wholeFloor128 exact_wholeFloor128 15 0 1048576).2 ⟨0, 0, [], []⟩ 0 pllA hargs
  obtain ⟨rest', hwrites⟩ := setMs_writes wholeFloor128 ⟨0, 0, [], []⟩ hargs
  rw [hsent, List.append_cancel_left_eq, List.cons.injEq, List.cons.injEq] at hwrites
  obtain ⟨⟨-, hbytes⟩, -⟩ := hwrites
  rw [hbytes] at hsays
  have hfits := (denotes_iff exact_wholeFloor128 (by decide) (by decide) (by decide)).mp hsays
  exact absurd hfits.1 (by decide)

end MiniHF.Si5351aPlls
