import Mathlib.Data.Rat.Floor
import MiniHF.Lib.Grid
import MiniHF.Radio.Tps55289

/-!
# What the regulator chip is set to

Both settings are rounded down to a grid. The reference is cut to a whole number of
microvolts, limited to what the chip has, and only then rounded, so its code has 11
bits and the output is not above what was asked for.

The code of a current limit is limited as well, but after it was cut to 8 bits. A
limit of 128 steps and more is one of fewer steps then, unless it happens to be 127
or more of the 256 that are left.
-/

namespace MiniHF.Tps55289

theorem widen_toNat {v : Int32} (h : 0 ≤ v.toInt) : (widen v).toNat = v.toInt.toNat := by
  have hlt := v.toInt_lt
  unfold widen UInt64.ofInt
  rw [UInt64.toNat_ofNat']
  omega

theorem toNat_lt {v : Int32} : v.toInt.toNat < 2147483648 := by
  have hlt := v.toInt_lt
  omega

theorem toUInt32_toNat {v : Int32} (h : 0 ≤ v.toInt) : v.toUInt32.toNat = v.toInt.toNat := by
  have hint : v.toInt = v.toBitVec.toInt := rfl
  have hnat : v.toUInt32.toNat = v.toBitVec.toNat := rfl
  have hcond := BitVec.toInt_eq_toNat_cond v.toBitVec
  have hlt := v.toBitVec.isLt
  rw [hint] at h
  rw [hnat, hint]
  split at hcond <;> omega

/-- A product of a setting and a word has 64 bits. -/
theorem widen_mul {v : Int32} (h : 0 ≤ v.toInt) (w : UInt32) :
    (widen v * w.toUInt64).toNat = v.toInt.toNat * w.toNat := by
  have hle : v.toInt.toNat * w.toNat ≤ 2147483648 * 4294967296 :=
    Nat.mul_le_mul (Nat.le_of_lt toNat_lt) (Nat.le_of_lt w.toNat_lt)
  rw [UInt64.toNat_mul, widen_toNat h, UInt32.toNat_toUInt64]
  exact Nat.mod_eq_of_lt (Nat.lt_of_le_of_lt hle (by decide))

/-! ## The current limit -/

/-- The voltage over the sense resistor at a current, in microvolts. -/
def senseUv (cfg : Tps55289Config) (minUa : Int32) : Nat :=
  minUa.toInt.toNat * cfg.rsenseMohm.toInt.toNat / 1000

/-- The code of a limit, over the integers. -/
def limitCode (cfg : Tps55289Config) (minUa : Int32) : Nat := min 127 (senseUv cfg minUa / 500)

/-- The limit is not cut, or what is left of it is still the largest one. -/
def Limited (cfg : Tps55289Config) (minUa : Int32) : Prop :=
  senseUv cfg minUa < 64000 ∨ 63500 ≤ senseUv cfg minUa % 4294967296 % 128000

/-- The byte that is written for a limit. -/
def limitByte (cfg : Tps55289Config) (minUa : Int32) : UInt8 :=
  let val := (((widen minUa * cfg.rsenseMohm.toUInt32.toUInt64) / 1000).toUInt32 / 500).toUInt8
  (if val > 127 then 127 else val) ||| 0x80

theorem setCurrentLimit_sent {cfg : Tps55289Config} (h : 0 < cfg.rsenseMohm.toInt) (d : Tps55289)
    (minUa maxUa : Int32) :
    (d.setCurrentLimit cfg minUa maxUa).2.sent = d.sent ++ [[regIoutLimit, limitByte cfg minUa]] := by
  have hpos : ¬ cfg.rsenseMohm ≤ 0 := by
    rw [Int32.le_iff_toInt_le, Int32.toInt_zero]
    omega
  unfold setCurrentLimit
  rw [if_neg hpos]
  rfl

/-- A code of 7 bits with the enable bit. -/
theorem or_enable {val : UInt8} (h : val.toNat ≤ 127) : (val ||| 0x80).toNat = 128 + val.toNat := by
  have hhigh : (0x80 : UInt8).toNat = 1 <<< 7 := rfl
  rw [UInt8.toNat_or, hhigh, Nat.or_comm, ← Nat.shiftLeft_add_eq_or_of_lt (by omega)]
  rfl

theorem limitByte_toNat {cfg : Tps55289Config} (h : 0 < cfg.rsenseMohm.toInt) {minUa : Int32}
    (h0 : 0 ≤ minUa.toInt) :
    (limitByte cfg minUa).toNat = 128 + min 127 (senseUv cfg minUa % 4294967296 / 500 % 256) := by
  have hsense : cfg.rsenseMohm.toUInt32.toNat = cfg.rsenseMohm.toInt.toNat :=
    toUInt32_toNat (Int.le_of_lt h)
  have hval : (((widen minUa * cfg.rsenseMohm.toUInt32.toUInt64) / 1000).toUInt32 / 500).toUInt8.toNat
      = senseUv cfg minUa % 4294967296 / 500 % 256 := by
    have h1000 : (1000 : UInt64).toNat = 1000 := rfl
    have h500 : (500 : UInt32).toNat = 500 := rfl
    rw [UInt32.toNat_toUInt8, UInt32.toNat_div, UInt64.toNat_toUInt32, UInt64.toNat_div,
      widen_mul h0, hsense, h1000, h500]
    rfl
  unfold limitByte
  dsimp only
  rw [← hval]
  have h127 : (127 : UInt8).toNat = 127 := rfl
  split
  · next hlt =>
      rw [gt_iff_lt, UInt8.lt_iff_toNat_lt, h127] at hlt
      rw [or_enable (by decide), Nat.min_eq_left (by omega), h127]
  · next hle =>
      rw [gt_iff_lt, UInt8.lt_iff_toNat_lt, h127] at hle
      rw [or_enable (by omega), Nat.min_eq_right (by omega)]

/-- What is left of a code is limited to the right one only where nothing was cut, or
where it does not matter. -/
theorem min_cut_iff (v : Nat) :
    min 127 (v % 4294967296 / 500 % 256) = min 127 (v / 500)
      ↔ v < 64000 ∨ 63500 ≤ v % 4294967296 % 128000 := by
  -- 256 codes are left, of 500 microvolts each
  have hcode : v % 4294967296 / 500 % 256 = v % 4294967296 % 128000 / 500 := by omega
  rw [hcode]
  rcases Nat.lt_or_ge v 64000 with hlt | hge
  · -- below the limit nothing is cut
    have hsame : v % 4294967296 % 128000 = v := by omega
    rw [hsame]
    exact iff_of_true rfl (.inl hlt)
  · constructor
    · intro heq
      omega
    · intro hor
      omega

/-- The written limit is the right one. -/
def Saturates (cfg : Tps55289Config) (minUa : Int32) : Prop :=
  ∀ (d : Tps55289) (maxUa : Int32), ∃ byte : UInt8,
    (d.setCurrentLimit cfg minUa maxUa).2.sent = d.sent ++ [[regIoutLimit, byte]] ∧
      byte.toNat = 0x80 + limitCode cfg minUa

theorem saturates_iff {cfg : Tps55289Config} (h : 0 < cfg.rsenseMohm.toInt) {minUa : Int32}
    (h0 : 0 ≤ minUa.toInt) : Saturates cfg minUa ↔ Limited cfg minUa := by
  have hbyte := limitByte_toNat h h0
  have hcut := min_cut_iff (senseUv cfg minUa)
  constructor
  · intro hsat
    obtain ⟨byte, hsent, hval⟩ := hsat ⟨[], []⟩ 0
    rw [setCurrentLimit_sent h] at hsent
    have hsame : limitByte cfg minUa = byte := by simpa using hsent
    rw [← hsame, hbyte] at hval
    exact hcut.mp (Nat.add_left_cancel hval)
  · intro hlim d maxUa
    refine ⟨limitByte cfg minUa, setCurrentLimit_sent h d minUa maxUa, ?_⟩
    rw [hbyte, hcut.mpr hlim]
    rfl

/-- The limit that is written for the higher current is not below the other one. -/
def NotBelow (cfg : Tps55289Config) (low high : Int32) : Prop :=
  ∀ (d : Tps55289) (maxUa : Int32) (lowByte highByte : UInt8),
    (d.setCurrentLimit cfg low maxUa).2.sent = d.sent ++ [[regIoutLimit, lowByte]] →
    (d.setCurrentLimit cfg high maxUa).2.sent = d.sent ++ [[regIoutLimit, highByte]] →
      lowByte.toNat ≤ highByte.toNat

theorem limitCode_mono (cfg : Tps55289Config) {low high : Int32} (h : low.toInt ≤ high.toInt) :
    limitCode cfg low ≤ limitCode cfg high := by
  have huv : senseUv cfg low ≤ senseUv cfg high :=
    Nat.div_le_div_right (Nat.mul_le_mul_right _ (Int.toNat_le_toNat h))
  exact min_le_min_left 127 (Nat.div_le_div_right huv)

theorem notBelow {cfg : Tps55289Config} {low high : Int32} (hle : low.toInt ≤ high.toInt)
    (hlow : Saturates cfg low) (hhigh : Saturates cfg high) : NotBelow cfg low high := by
  intro d maxUa lowByte highByte hsentLow hsentHigh
  obtain ⟨x, hx, hxcode⟩ := hlow d maxUa
  obtain ⟨y, hy, hycode⟩ := hhigh d maxUa
  have hxeq : x = lowByte := by simpa using hx.symm.trans hsentLow
  have hyeq : y = highByte := by simpa using hy.symm.trans hsentHigh
  rw [← hxeq, ← hyeq, hxcode, hycode]
  exact Nat.add_le_add_left (limitCode_mono cfg hle) _

/-- **A limit saturates, and follows the current asked for, where it is not cut.** -/
theorem current_limit {cfg : Tps55289Config} (hsense : 0 < cfg.rsenseMohm.toInt) {low high : Int32}
    (hlow : 0 ≤ low.toInt) (hle : low.toInt ≤ high.toInt) :
    (Saturates cfg low ∧ Saturates cfg high ∧ NotBelow cfg low high)
      ↔ (Limited cfg low ∧ Limited cfg high) := by
  have hiffLow := saturates_iff hsense hlow
  have hiffHigh := saturates_iff hsense (Int.le_trans hlow hle)
  constructor
  · rintro ⟨h1, h2, -⟩
    exact ⟨hiffLow.mp h1, hiffHigh.mp h2⟩
  · rintro ⟨h1, h2⟩
    have hsat1 := hiffLow.mpr h1
    have hsat2 := hiffHigh.mpr h2
    exact ⟨hsat1, hsat2, notBelow hle hsat1 hsat2⟩

/-- One to five amperes over 10 milliohms. -/
theorem current_limit_amperes :
    Saturates ⟨true, 274000, 100000, 10, 0⟩ 1000000 ∧
      Saturates ⟨true, 274000, 100000, 10, 0⟩ 5000000 ∧
      NotBelow ⟨true, 274000, 100000, 10, 0⟩ 1000000 5000000 :=
  (current_limit (by decide) (by decide) (by decide)).mpr
    ⟨.inl (by decide), .inl (by decide)⟩

/-- **Not every limit does**: of 128 millivolts over the resistor nothing is left. -/
theorem current_limit_cut :
    ¬ ∀ cfg : Tps55289Config, 0 < cfg.rsenseMohm.toInt →
      (∀ minUa : Int32, 0 ≤ minUa.toInt → Saturates cfg minUa) ∧
      ∀ low high : Int32, 0 ≤ low.toInt → low.toInt ≤ high.toInt → NotBelow cfg low high := by
  intro h
  have hsat := (h ⟨true, 274000, 100000, 100, 0⟩ (by decide)).1 1280000 (by decide)
  have hlim := (saturates_iff (by decide) (by decide)).mp hsat
  revert hlim
  unfold Limited
  decide

/-! ## The voltage -/

/-- The resistors of an external divider. -/
def HasDivider (cfg : Tps55289Config) : Prop :=
  cfg.externalFb = true →
    1 ≤ cfg.rTop.toNat + cfg.rBottom.toNat ∧ cfg.rTop.toNat + cfg.rBottom.toNat ≤ 4294967295

def fbNum (cfg : Tps55289Config) : Nat :=
  if cfg.externalFb then cfg.rBottom.toNat
  else (ratiosX10000.getD (cfg.intFbRatio &&& 0x03).toNat 0).toNat

def fbDen (cfg : Tps55289Config) : Nat :=
  if cfg.externalFb then cfg.rTop.toNat + cfg.rBottom.toNat else 10000

/-- The part of the output that is fed back. -/
def fbRatio (cfg : Tps55289Config) : Rat := fbNum cfg / fbDen cfg

/-- The reference for an output, in microvolts. -/
def reference (cfg : Tps55289Config) (minUv : Int32) : Rat := minUv.toInt * fbRatio cfg

/-- The references the chip has: 45 mV and up, 0.5645 mV apart. -/
def references : Grid Rat where
  origin := 45000
  step := 5645 / 10
  step_pos := by norm_num

theorem dividedUv_toNat {cfg : Tps55289Config} (h : HasDivider cfg) {minUv : Int32}
    (h0 : 0 ≤ minUv.toInt) :
    (dividedUv cfg minUv).toNat = minUv.toInt.toNat * fbNum cfg / fbDen cfg := by
  unfold dividedUv fbNum fbDen
  split
  · next hext =>
      have hsum : (cfg.rTop + cfg.rBottom).toNat = cfg.rTop.toNat + cfg.rBottom.toNat := by
        rw [UInt32.toNat_add, Nat.mod_eq_of_lt (Nat.lt_succ_of_le (h hext).2)]
      rw [UInt64.toNat_div, widen_mul h0, UInt32.toNat_toUInt64, hsum]
  · rw [UInt64.toNat_div, widen_mul h0]
    rfl

/-- The reference is cut to whole microvolts. -/
theorem dividedUv_eq_floor {cfg : Tps55289Config} (h : HasDivider cfg) {minUv : Int32}
    (h0 : 0 ≤ minUv.toInt) : (dividedUv cfg minUv).toNat = ⌊reference cfg minUv⌋₊ := by
  have hint : (minUv.toInt : Rat) = (minUv.toInt.toNat : Rat) := by
    rw [← Int.cast_natCast, Int.toNat_of_nonneg h0]
  have hquot : reference cfg minUv = ((minUv.toInt.toNat * fbNum cfg : Nat) : Rat) / fbDen cfg := by
    unfold reference fbRatio
    rw [hint, Nat.cast_mul, mul_div_assoc]
  rw [dividedUv_toNat h h0, hquot, Nat.floor_div_eq_div]

theorem clamp_toNat (v : UInt64) : (clamp v 45000 1200000).toNat = max 45000 (min v.toNat 1200000) := by
  have hlow : (45000 : UInt64).toNat = 45000 := rfl
  have hhigh : (1200000 : UInt64).toNat = 1200000 := rfl
  unfold clamp
  split
  · next hle =>
      rw [UInt64.le_iff_toNat_le, hlow] at hle
      omega
  · next hlt =>
      rw [UInt64.le_iff_toNat_le, hlow] at hlt
      split
      · next hin =>
          rw [UInt64.lt_iff_toNat_lt, hhigh] at hin
          omega
      · next hout =>
          rw [UInt64.lt_iff_toNat_lt, hhigh] at hout
          omega

theorem voltageVal_toNat (cfg : Tps55289Config) (minUv : Int32) :
    (voltageVal cfg minUv).toNat
      = (max 45000 (min (dividedUv cfg minUv).toNat 1200000) - 45000) * 10 / 5645 := by
  have hclamp := clamp_toNat (dividedUv cfg minUv)
  have hlow : (45000 : UInt64).toNat = 45000 := rfl
  have h10 : (10 : UInt64).toNat = 10 := rfl
  have h5645 : (5645 : UInt64).toNat = 5645 := rfl
  have hge : (45000 : UInt64) ≤ clamp (dividedUv cfg minUv) 45000 1200000 := by
    rw [UInt64.le_iff_toNat_le, hclamp, hlow]
    exact Nat.le_max_left _ _
  unfold voltageVal
  dsimp only
  rw [UInt64.toNat_toUInt32, UInt64.toNat_div, UInt64.toNat_mul, UInt64.toNat_sub_of_le _ _ hge, hclamp,
    hlow, h10, h5645]
  have hle : max 45000 (min (dividedUv cfg minUv).toNat 1200000) ≤ 1200000 := by omega
  generalize max 45000 (min (dividedUv cfg minUv).toNat 1200000) = vrefUv at hle ⊢
  rw [Nat.mod_eq_of_lt (by omega : (vrefUv - 45000) * 10 < 2 ^ 64)]
  exact Nat.mod_eq_of_lt (by omega)

/-- The codes of the references, over the integers. -/
theorem code_references {uv : Nat} (h : 45000 ≤ uv) :
    references.code (uv : Rat) = (uv - 45000) * 10 / 5645 := by
  have hquot : ((uv : Rat) - 45000) / (5645 / 10) = ((uv - 45000) * 10 : Nat) / (5645 : Nat) := by
    push_cast [Nat.cast_sub h]
    rw [div_div_eq_mul_div]
  unfold Grid.code references
  dsimp only
  rw [hquot, Nat.floor_div_eq_div]

/-- **The code is that of the reference, limited to what the chip has.** -/
theorem voltageVal_code {cfg : Tps55289Config} (h : HasDivider cfg) {minUv : Int32}
    (h0 : 0 ≤ minUv.toInt) :
    (voltageVal cfg minUv).toNat
      = references.code ((max 45000 (min ⌊reference cfg minUv⌋₊ 1200000) : Nat) : Rat) := by
  rw [voltageVal_toNat, dividedUv_eq_floor h h0, code_references (Nat.le_max_left _ _)]

theorem voltageVal_le (cfg : Tps55289Config) (minUv : Int32) : (voltageVal cfg minUv).toNat ≤ 2046 := by
  rw [voltageVal_toNat]
  omega

/-- A code of 11 bits in two bytes. -/
theorem codeBytes {code : UInt32} (h : code.toNat < 2048) :
    ((code &&& 0xFF).toUInt8).toNat + 256 * (((code >>> 8) &&& 0x07).toUInt8).toNat = code.toNat ∧
      (((code >>> 8) &&& 0x07).toUInt8).toNat < 8 := by
  have hff : (0xFF : UInt32).toNat = 2 ^ 8 - 1 := rfl
  have h7 : (0x07 : UInt32).toNat = 2 ^ 3 - 1 := rfl
  have h8 : (8 : UInt32).toNat % 32 = 8 := rfl
  rw [UInt32.toNat_toUInt8, UInt32.toNat_toUInt8, UInt32.toNat_and, UInt32.toNat_and,
    UInt32.toNat_shiftRight, hff, h7, h8, Nat.and_two_pow_sub_one_eq_mod,
    Nat.and_two_pow_sub_one_eq_mod, Nat.shiftRight_eq_div_pow]
  omega

/-- What the chip is told for an output. -/
structure Programmed (cfg : Tps55289Config) (minUv : Int32) (code : Nat) : Prop where
  /-- Both bytes hold the whole code. -/
  bytes : ∀ (d : Tps55289) (maxUv : Int32), ∃ lo hi : UInt8,
    (d.setVoltage cfg minUv maxUv).2.sent = d.sent ++ [[regRefLsb, lo, hi]] ∧
      hi.toNat < 8 ∧ lo.toNat + 256 * hi.toNat = code
  /-- Nothing of it was masked. -/
  whole : code = (voltageVal cfg minUv).toNat
  highest : code ≤ 2046
  /-- The reference selected is not above the one asked for, nor the output above its own. -/
  near : 45000 ≤ reference cfg minUv → reference cfg minUv ≤ 1200000 →
    references.point code ≤ reference cfg minUv ∧
      reference cfg minUv < references.point code + references.step + 1 ∧
      references.point code / fbRatio cfg ≤ minUv.toInt

/-- A reference in whole microvolts is limited to itself where the chip has it. -/
theorem limited_reference {v : Rat} (hlow : 45000 ≤ v) (hhigh : v ≤ 1200000) :
    max 45000 (min ⌊v⌋₊ 1200000) = ⌊v⌋₊ ∧ 45000 ≤ ⌊v⌋₊ := by
  have h1 : 45000 ≤ ⌊v⌋₊ := Nat.le_floor (by exact_mod_cast hlow)
  have h2 : ⌊v⌋₊ ≤ 1200000 := by
    have hmono := Nat.floor_mono hhigh
    rwa [Nat.floor_ofNat] at hmono
  exact ⟨by omega, h1⟩

theorem near_reference {cfg : Tps55289Config} (h : HasDivider cfg) {minUv : Int32}
    (h0 : 0 ≤ minUv.toInt) (hlow : 45000 ≤ reference cfg minUv)
    (hhigh : reference cfg minUv ≤ 1200000) :
    references.point (voltageVal cfg minUv).toNat ≤ reference cfg minUv ∧
      reference cfg minUv < references.point (voltageVal cfg minUv).toNat + references.step + 1 := by
  obtain ⟨hwhole, hge⟩ := limited_reference hlow hhigh
  have hcut : (⌊reference cfg minUv⌋₊ : Rat) ≤ reference cfg minUv :=
    Nat.floor_le (le_trans (by norm_num) hlow)
  have hnext : reference cfg minUv < ⌊reference cfg minUv⌋₊ + 1 := Nat.lt_floor_add_one _
  have horigin : (45000 : Rat) ≤ ⌊reference cfg minUv⌋₊ := by exact_mod_cast hge
  rw [voltageVal_code h h0, hwhole]
  constructor
  · exact le_trans (references.point_code_le horigin) hcut
  · calc reference cfg minUv
        < ⌊reference cfg minUv⌋₊ + 1 := hnext
      _ < _ := add_lt_add_left (references.lt_point_code_add _) 1

theorem programmed {cfg : Tps55289Config} (h : HasDivider cfg) {minUv : Int32}
    (h0 : 0 ≤ minUv.toInt) : Programmed cfg minUv (voltageVal cfg minUv).toNat where
  bytes := by
    intro d maxUv
    have hle := voltageVal_le cfg minUv
    obtain ⟨hsum, hhi⟩ := @codeBytes (voltageVal cfg minUv) (by omega)
    exact ⟨_, _, rfl, hhi, hsum⟩
  whole := rfl
  highest := voltageVal_le cfg minUv
  near := by
    intro hlow hhigh
    obtain ⟨hbelow, hnear⟩ := near_reference h h0 hlow hhigh
    refine ⟨hbelow, hnear, ?_⟩
    -- a ratio of 0 has no reference in the range
    have hpos : 0 < fbRatio cfg := by
      refine lt_of_le_of_ne (div_nonneg (Nat.cast_nonneg _) (Nat.cast_nonneg _)) ?_
      intro hzero
      unfold reference at hlow
      rw [← hzero, mul_zero] at hlow
      norm_num at hlow
    rw [div_le_iff₀ hpos]
    exact hbelow

theorem reference_mono (cfg : Tps55289Config) {low high : Int32} (hle : low.toInt ≤ high.toInt) :
    reference cfg low ≤ reference cfg high := by
  unfold reference fbRatio
  have hratio : (0 : Rat) ≤ fbNum cfg / fbDen cfg := div_nonneg (Nat.cast_nonneg _) (Nat.cast_nonneg _)
  exact mul_le_mul_of_nonneg_right (by exact_mod_cast hle) hratio

theorem voltageVal_mono {cfg : Tps55289Config} (h : HasDivider cfg) {low high : Int32}
    (hlow : 0 ≤ low.toInt) (hle : low.toInt ≤ high.toInt) :
    (voltageVal cfg low).toNat ≤ (voltageVal cfg high).toNat := by
  have hfloor := Nat.floor_mono (reference_mono cfg hle)
  rw [voltageVal_code h hlow, voltageVal_code h (Int.le_trans hlow hle)]
  exact references.code_mono (by exact_mod_cast max_le_max_left _ (min_le_min_right _ hfloor))

/-- **An output is rounded down to the references, whatever divides it, and its code follows it.** -/
theorem reference_code {cfg : Tps55289Config} (h : HasDivider cfg) {low high : Int32}
    (hlow : 0 ≤ low.toInt) (hle : low.toInt ≤ high.toInt) :
    ∃ m n, Programmed cfg low m ∧ Programmed cfg high n ∧ m ≤ n :=
  ⟨_, _, programmed h hlow, programmed h (Int.le_trans hlow hle), voltageVal_mono h hlow hle⟩

/-- The resistors of the board, between three and four volts. -/
theorem reference_code_volts :
    ∃ m n, Programmed ⟨true, 274000, 100000, 0, 3⟩ 3000000 m ∧
      Programmed ⟨true, 274000, 100000, 0, 3⟩ 4000000 n ∧ m ≤ n :=
  reference_code (by intro _; decide) (by decide) (by decide)

end MiniHF.Tps55289
