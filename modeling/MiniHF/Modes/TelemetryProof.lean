import MiniHF.Modes.BitStoreProof
import MiniHF.Modes.NumberProof

/-!
# The nibbles of a telemetry text

`encode_t71` counts the places of its nibbles from the end of the nine bytes, so that
the last one is at the right end whatever the length. Each nibble is or-ed to four
bits that nothing has been written to, and so the nine bytes are the numeral of the
text.
-/

namespace MiniHF.Ftx

open Buffer

/-! ## What a text stands for -/

def hexCharset : List UInt8 := literal "0123456789ABCDEF"

/-- The value of a hexadecimal digit of either case. Any other character counts 0. -/
def hexValue (c : UInt8) : Nat :=
  if upper c ∈ hexCharset then hexCharset.idxOf (upper c) else 0

/-- The digits of a telemetry text: those of its first eighteen characters. Where there are
eighteen, the first one is 7 if it is more. -/
def telemetryDigits (hex : List UInt8) : List Nat :=
  match (hex.take 18).map hexValue with
  | [] => []
  | d :: digits => (if 18 ≤ hex.length ∧ 7 < d then 7 else d) :: digits

theorem hexDigit_toNat (c : UInt8) : (hexDigit c).toNat = hexValue c := by
  have hall : ∀ n < 256, (hexDigit (UInt8.ofNat n)).toNat = hexValue (UInt8.ofNat n) := by
    decide +kernel
  have hc := hall c.toNat c.toNat_lt
  rwa [UInt8.ofNat_toNat] at hc

/-- The nibbles are the digits of the text. -/
theorem t71Nibbles_digits (hex : List UInt8) :
    (t71Nibbles hex).map UInt8.toNat = telemetryDigits hex := by
  unfold t71Nibbles telemetryDigits
  rcases hex with _ | ⟨c, rest⟩
  · rfl
  rw [List.take_succ_cons, List.map_cons, List.map_cons, List.map_cons, List.map_map]
  congr 1
  · -- the two conditions are about one length
    have hiff : (((rest.take 17).map hexDigit).length = 17 ∧ hexDigit c > 7)
        ↔ (18 ≤ (c :: rest).length ∧ 7 < hexValue c) := by
      have h7 : (7 : UInt8).toNat = 7 := rfl
      rw [List.length_map, List.length_take, List.length_cons, gt_iff_lt, UInt8.lt_iff_toNat_lt,
        hexDigit_toNat, h7]
      omega
    by_cases hcut : 18 ≤ (c :: rest).length ∧ 7 < hexValue c
    · rw [if_pos hcut, if_pos (hiff.mpr hcut)]
      rfl
    · rw [if_neg hcut, if_neg (fun h => hcut (hiff.mp h)), hexDigit_toNat]
  · exact List.map_congr_left (fun d _ => hexDigit_toNat d)

theorem nibbleNumber_digits (hex : List UInt8) :
    nibbleNumber hex = Numeral.value 16 id (telemetryDigits hex) := by
  rw [nibbleNumber, ← t71Nibbles_digits, Numeral.value, Numeral.value, List.foldl_map]
  rfl

/-! ## Where the nibbles go -/

/-- A nibble was written: to four bits inside the nine bytes that were clear, and nowhere else. -/
structure Placed (before after : Vector UInt8 9) (bitPos : Nat) (nibble : UInt8) : Prop where
  inside : bitPos + 4 ≤ 72
  clear : ∀ q, Covers bitPos 4 q → Bits.bit before.toList q = false
  written : Bits.readBits after.toList bitPos 4 = nibble.toNat
  rest : ∀ q < 72, ¬ Covers bitPos 4 q → Bits.bit after.toList q = Bits.bit before.toList q

/-- A number that grows by a nibble is written by a nibble in its place. -/
theorem placed_of_holds {before after : Vector UInt8 9} {bitPos v : Nat} {nibble : UInt8}
    (hn : nibble.toNat < 16) (hfit : bitPos + 4 ≤ 72) (hbefore : Holds before bitPos v)
    (hafter : Holds after (bitPos + 4) (v * 16 + nibble.toNat)) :
    Placed before after bitPos nibble := by
  have hnib : nibble.toNat < 2 ^ 4 := hn
  have hbit : ∀ j, (v * 16 + nibble.toNat).testBit j
      = if j < 4 then nibble.toNat.testBit j else v.testBit (j - 4) := by
    intro j
    rw [Nat.mul_comm v, show 16 * v = 2 ^ 4 * v by rfl, Nat.testBit_two_pow_mul_add _ hnib]
  refine ⟨hfit, ?_, ?_, ?_⟩
  · rintro q ⟨hge, hlt⟩
    rw [hbefore q (by omega), decide_eq_false (by omega), Bool.false_and]
  · refine Bits.bitsValue_eq hn ?_
    intro k hk
    rw [hafter (bitPos + k) (by omega), hbit, if_pos (by omega), decide_eq_true (by omega),
      Bool.true_and]
    congr 1
    omega
  · intro q hq hout
    rw [hafter q hq, hbefore q hq, hbit]
    by_cases hold : q < bitPos
    · rw [if_neg (by omega), decide_eq_true hold, decide_eq_true (by omega)]
      congr 2
      omega
    · have hbehind : ¬ q < bitPos + 4 := fun hlt => hout ⟨by omega, hlt⟩
      rw [decide_eq_false hold, decide_eq_false hbehind, Bool.false_and, Bool.false_and]

/-- **Every nibble has its place.** Whatever nibbles stand before it, it goes behind them, and the
loop goes on behind it. -/
theorem orNibbles_placed {pre post : List UInt8} {n : UInt8} {start : Nat}
    (hn : ∀ x ∈ pre ++ n :: post, x.toNat < 16) (hpos : start % 4 = 0)
    (hfit : start + 4 * (pre ++ n :: post).length ≤ 72) :
    ∃ before after, orNibbles (Vector.replicate 9 0) start pre = .ok before ∧
      Placed before after (start + 4 * pre.length) n ∧
      orNibbles (Vector.replicate 9 0) start (pre ++ n :: post)
        = orNibbles after (start + 4 * (pre.length + 1)) post := by
  rw [List.length_append, List.length_cons] at hfit
  have hpre : ∀ x ∈ pre, x.toNat < 16 := fun x hx => hn x (List.mem_append_left _ hx)
  have hone : n.toNat < 16 := hn n (List.mem_append_right _ List.mem_cons_self)
  obtain ⟨before, hrun, hbefore⟩ := orNibbles_spec hpre (holds_clear start) hpos (by omega)
  obtain ⟨after, hstep, hafter⟩ :=
    orNibbles_step hbefore hone (show (start + 4 * pre.length) % 4 = 0 by omega) (by omega)
  refine ⟨before, after, ?_, placed_of_holds hone (by omega) hbefore hafter, ?_⟩
  · rw [← List.append_nil pre, hrun, orNibbles]
  · rw [hrun, hstep]
    rfl

/--
**The nine bytes are the number of the text.**

Its digits are those of the first eighteen characters, and the number is below
`2^71`. With the nibbles `pre` written and `n` the next one, `n` goes to four bits
of the nine bytes that are still clear, and the loop goes on from there.
-/
theorem telemetry_number (hex : List UInt8) :
    (∃ data, encodeT71 hex = .ok data ∧
      Bits.beValue data.toList = Numeral.value 16 id (telemetryDigits hex) ∧
      Bits.beValue data.toList < 1 <<< 71) ∧
    ∀ pre n post, t71Nibbles hex = pre ++ n :: post →
      let start := 72 - (t71Nibbles hex).length * 4
      ∃ before after, orNibbles (Vector.replicate 9 0) start pre = .ok before ∧
        Placed before after (start + 4 * pre.length) n ∧
        orNibbles (Vector.replicate 9 0) start (t71Nibbles hex)
          = orNibbles after (start + 4 * (pre.length + 1)) post := by
  constructor
  · obtain ⟨data, hdata, hvalue⟩ := encodeT71_spec hex
    refine ⟨data, hdata, hvalue.trans (nibbleNumber_digits hex), ?_⟩
    rw [hvalue]
    exact nibbleNumber_lt hex
  · intro pre n post hsplit start
    have hlt := t71Nibbles_lt hex
    have hlen := t71Nibbles_length hex
    have hstart : start = 72 - (t71Nibbles hex).length * 4 := rfl
    rw [hsplit] at hlt hlen hstart ⊢
    exact orNibbles_placed hlt (by omega) (by omega)

end MiniHF.Ftx
