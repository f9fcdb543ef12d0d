import MiniHF.Lib.Stuffing
import MiniHF.Protocol.Cobs

/-!
# What the COBS functions compute

`cobsEncode` writes the stuffed form of its input, with runs of at most 254
bytes. The loop invariant says where in that form the encoder stands: the closed
blocks, one reserved place, and the bytes of the run being collected.

`cobsDecode` is compared with `decodeTrace`, the bytes it stores one after
another whatever the buffer. That splits the two questions about the decoder:
what it stores is a question about lists (`unstuff_eq_trace`), and whether it
stays inside the buffer is a question about one length (`decodeTrace_length`).
-/

namespace MiniHF

open Buffer Stuffing

/-- Lengths 0 to 254 are written as the bytes 1 to 255. -/
def cobsCoding : Coding (0 : UInt8) 254 where
  code n := UInt8.ofNat (n + 1)
  value b := b.toNat - 1
  value_code n hn := by
    rw [UInt8.toNat_ofNat_of_lt' (by simp [UInt8.size]; omega)]
    omega
  code_ne n hn he := by
    have := congrArg UInt8.toNat he
    rw [UInt8.toNat_ofNat_of_lt' (by simp [UInt8.size]; omega)] at this
    simp at this
  value_le a _ := by
    have := a.toNat_lt
    omega
  code_value a ha := by
    have : a.toNat ≠ 0 := fun h => ha (UInt8.toNat_inj.mp h)
    rw [show a.toNat - 1 + 1 = a.toNat by omega, UInt8.ofNat_toNat]

theorem cobsCoding_value (b : UInt8) : cobsCoding.value b = b.toNat - 1 := rfl

/-- The COBS form of a byte string. -/
def cobs (x : List UInt8) : List UInt8 := stuff cobsCoding x

/-! ## Encoding -/

/-- Where the encoder stands: `pre` holds the closed blocks, `acc` the run being collected. -/
structure EncodeInv {n : Nat} (s : CobsEncodeState n) (pre acc : List UInt8) : Prop where
  /-- The reserved place comes right behind the closed blocks. -/
  codeIndex : s.codeIndex = pre.length
  /-- The run follows the reserved place. -/
  writeIndex : s.writeIndex = pre.length + 1 + acc.length
  /-- The code byte counts the run and itself. -/
  code : s.code.toNat = acc.length + 1
  /-- A full run would have been closed. -/
  short : acc.length < 254
  /-- The buffer holds the closed blocks and the run. -/
  output : ∃ x, Written s.output (pre ++ x :: acc)

/-- The rest of `cobs_encode` from inside the loop. -/
def cobsEncodeFrom {n : Nat} (s : CobsEncodeState n) (input : List UInt8) :
    Except Fault (Nat × Vector UInt8 n) := do
  let s ← cobsEncodeLoop s input
  let output ← store s.output s.codeIndex s.code
  return (s.writeIndex, output)

theorem cobsCoding_code {acc : List UInt8} {c : UInt8} (h : c.toNat = acc.length + 1) :
    cobsCoding.code acc.length = c := by
  show UInt8.ofNat (acc.length + 1) = c
  rw [← h, UInt8.ofNat_toNat]

/-- The buffer with the code byte put in its place. -/
theorem EncodeInv.close {n : Nat} {s : CobsEncodeState n} {pre acc : List UInt8}
    (h : EncodeInv s pre acc) :
    ∃ output, store s.output s.codeIndex s.code = .ok output
      ∧ Written output (pre ++ emit cobsCoding [acc]) := by
  obtain ⟨x, hx⟩ := h.output
  obtain ⟨output, ho, hw⟩ := store_mid s.code hx
  refine ⟨output, by rw [h.codeIndex]; exact ho, ?_⟩
  simpa [emit, cobsCoding_code h.code] using hw

/-- The state after a block was closed and the next place reserved. -/
theorem EncodeInv.reserve {n : Nat} {output : Vector UInt8 n} {pre : List UInt8}
    (hw : Written output pre) (hlt : pre.length < n) :
    EncodeInv { writeIndex := pre.length + 1, codeIndex := pre.length, code := 1, output } pre [] :=
  ⟨rfl, rfl, rfl, by simp, hw.skip hlt⟩

/-- The next data byte goes behind the run. -/
theorem EncodeInv.collect {n : Nat} {s : CobsEncodeState n} {pre acc : List UInt8}
    (h : EncodeInv s pre acc) (b : UInt8) (hlt : pre.length + 1 + acc.length < n) :
    ∃ output, store s.output s.writeIndex b = .ok output
      ∧ ∃ x, Written output (pre ++ x :: (acc ++ [b])) := by
  obtain ⟨x, hx⟩ := h.output
  have hwi : s.writeIndex = (pre ++ x :: acc).length := by
    rw [h.writeIndex, List.length_append, List.length_cons]
    omega
  obtain ⟨output, ho, hw⟩ := store_snoc b hx (by rw [← hwi, h.writeIndex]; exact hlt)
  refine ⟨output, by rw [hwi]; exact ho, x, ?_⟩
  rw [List.append_assoc, List.cons_append] at hw
  exact hw

theorem EncodeInv.code_succ {n : Nat} {s : CobsEncodeState n} {pre acc : List UInt8}
    (h : EncodeInv s pre acc) (b : UInt8) : (s.code + 1).toNat = (acc ++ [b]).length + 1 := by
  have := h.short
  have hone : UInt8.toNat 1 = 1 := rfl
  rw [UInt8.toNat_add, h.code, List.length_append, List.length_singleton, hone]
  exact Nat.mod_eq_of_lt (by omega)

theorem length_emit_one (pre acc : List UInt8) :
    (pre ++ emit cobsCoding [acc]).length = pre.length + 1 + acc.length := by
  rw [emit, emit, List.append_nil, List.length_append, List.length_cons]
  omega

/-- A zero closes the block. -/
theorem EncodeInv.step_zero {n : Nat} {s : CobsEncodeState n} {pre acc : List UInt8}
    (h : EncodeInv s pre acc) (input : List UInt8) (hlt : (pre ++ emit cobsCoding [acc]).length < n) :
    ∃ s', cobsEncodeFrom s (0 :: input) = cobsEncodeFrom s' input
      ∧ EncodeInv s' (pre ++ emit cobsCoding [acc]) [] := by
  obtain ⟨output, ho, hw⟩ := h.close
  have hwi : s.writeIndex = (pre ++ emit cobsCoding [acc]).length := by
    rw [h.writeIndex, length_emit_one]
  refine ⟨_, ?_, EncodeInv.reserve hw hlt⟩
  rw [cobsEncodeFrom, cobsEncodeLoop, if_pos rfl, ho, ok_bind, hwi]
  rfl

/-- A byte that fills the run closes the block as well: its code is `0xFF`. -/
theorem EncodeInv.step_full {n : Nat} {s : CobsEncodeState n} {pre acc : List UInt8}
    (h : EncodeInv s pre acc) {b : UInt8} (hb : b ≠ 0) (input : List UInt8)
    (hfull : acc.length + 1 = 254) (hlt : (pre ++ emit cobsCoding [acc ++ [b]]).length < n) :
    ∃ s', cobsEncodeFrom s (b :: input) = cobsEncodeFrom s' input
      ∧ EncodeInv s' (pre ++ emit cobsCoding [acc ++ [b]]) [] := by
  have hcode := h.code_succ b
  have hone : (acc ++ [b]).length = acc.length + 1 := by
    rw [List.length_append, List.length_singleton]
  have hlen := length_emit_one pre (acc ++ [b])
  rw [hone] at hcode hlen
  obtain ⟨out₁, ho₁, x, hw₁⟩ := h.collect b (by omega)
  obtain ⟨out₂, ho₂, hw₂⟩ := store_mid (s.code + 1) hw₁
  have hff : s.code + 1 = 0xFF := by
    apply UInt8.toNat_inj.mp
    rw [hcode, hfull]
    rfl
  have hpre : pre ++ (s.code + 1) :: (acc ++ [b]) = pre ++ emit cobsCoding [acc ++ [b]] := by
    rw [emit, emit, List.append_nil, cobsCoding_code (h.code_succ b)]
  rw [hpre] at hw₂
  have hwi : s.writeIndex + 1 = (pre ++ emit cobsCoding [acc ++ [b]]).length := by
    rw [h.writeIndex, hlen]
    omega
  refine ⟨_, ?_, EncodeInv.reserve hw₂ hlt⟩
  rw [cobsEncodeFrom, cobsEncodeLoop, if_neg hb, ho₁, ok_bind]
  dsimp only
  rw [if_pos hff, h.codeIndex, ho₂, ok_bind, hwi]
  rfl

/-- Any other byte goes behind the run. -/
theorem EncodeInv.step_more {n : Nat} {s : CobsEncodeState n} {pre acc : List UInt8}
    (h : EncodeInv s pre acc) {b : UInt8} (hb : b ≠ 0) (input : List UInt8)
    (hfull : acc.length + 1 ≠ 254) (hlt : pre.length + 1 + acc.length < n) :
    ∃ s', cobsEncodeFrom s (b :: input) = cobsEncodeFrom s' input
      ∧ EncodeInv s' pre (acc ++ [b]) := by
  have hcode := h.code_succ b
  have hshort := h.short
  have hlen : (acc ++ [b]).length = acc.length + 1 := by
    rw [List.length_append, List.length_singleton]
  obtain ⟨out₁, ho₁, hw₁⟩ := h.collect b hlt
  have hff : s.code + 1 ≠ 0xFF := by
    intro he
    have h255 : (0xFF : UInt8).toNat = 255 := rfl
    rw [he, hlen, h255] at hcode
    omega
  refine ⟨{ s with writeIndex := s.writeIndex + 1, code := s.code + 1, output := out₁ }, ?_,
    h.codeIndex, ?_, h.code_succ b, by omega, hw₁⟩
  · rw [cobsEncodeFrom, cobsEncodeLoop, if_neg hb, ho₁, ok_bind]
    dsimp only
    rw [if_neg hff]
    rfl
  · dsimp only
    rw [hlen, h.writeIndex]
    rfl

/-- **The loop writes the stuffed form of what it has still to read.** -/
theorem cobsEncodeFrom_spec {n : Nat} {s : CobsEncodeState n} {pre acc : List UInt8}
    (input : List UInt8) (h : EncodeInv s pre acc)
    (hlen : (pre ++ emit cobsCoding (runsFrom 0 254 acc input)).length ≤ n) :
    ∃ output,
      cobsEncodeFrom s input
          = .ok ((pre ++ emit cobsCoding (runsFrom 0 254 acc input)).length, output)
        ∧ Written output (pre ++ emit cobsCoding (runsFrom 0 254 acc input)) := by
  induction input generalizing s pre acc with
  | nil =>
      -- the store behind the loop closes the last block
      obtain ⟨output, ho, hw⟩ := h.close
      refine ⟨output, ?_, hw⟩
      rw [cobsEncodeFrom, cobsEncodeLoop, ok_bind, ho, ok_bind, h.writeIndex, runsFrom,
        length_emit_one]
      rfl
  | cons b input ih =>
      -- a closed block and the blocks behind it, which are at least one byte
      have hcons : ∀ run, pre ++ emit cobsCoding (run :: runsFrom 0 254 [] input)
          = (pre ++ emit cobsCoding [run]) ++ emit cobsCoding (runsFrom 0 254 [] input) := by
        intro run
        simp [emit]
      have hpos : 0 < (emit cobsCoding (runsFrom 0 254 [] input)).length := stuff_pos cobsCoding input
      rw [runsFrom] at hlen ⊢
      by_cases hb : b = 0
      · rw [if_pos hb, hcons] at hlen ⊢
        obtain ⟨s', hs', h'⟩ := h.step_zero input (by rw [List.length_append] at hlen; omega)
        rw [hb, hs']
        exact ih h' hlen
      · rw [if_neg hb] at hlen ⊢
        by_cases hfull : acc.length + 1 = 254
        · rw [if_pos hfull, hcons] at hlen ⊢
          obtain ⟨s', hs', h'⟩ :=
            h.step_full hb input hfull (by rw [List.length_append] at hlen; omega)
          rw [hs']
          exact ih h' hlen
        · rw [if_neg hfull] at hlen ⊢
          have hge := @emit_runsFrom_ge _ _ _ _ cobsCoding (acc ++ [b]) input
          rw [List.length_append, List.length_singleton] at hge
          obtain ⟨s', hs', h'⟩ :=
            h.step_more hb input hfull (by rw [List.length_append] at hlen; omega)
          rw [hs']
          exact ih h' hlen

/-- **`cobs_encode` writes the COBS form**, wherever the buffer is long enough for it. -/
theorem cobsEncode_spec {n : Nat} (input : List UInt8) (output : Vector UInt8 n)
    (hlen : (cobs input).length ≤ n) :
    ∃ output', cobsEncode input output = .ok ((cobs input).length, output')
      ∧ Written output' (cobs input) := by
  have hpos : 0 < (cobs input).length := stuff_pos cobsCoding input
  have h := EncodeInv.reserve (written_nil output) (by simp; omega)
  exact cobsEncodeFrom_spec input h hlen

/-! ## Decoding -/

/--
The bytes `cobs_decode` stores, in order, and whether it reads the input to its
end. Each block gives its data, and a zero if it is short and input remains.
-/
def decodeTrace (y : List UInt8) : List UInt8 × Bool :=
  match y with
  | [] => ([], true)
  | code :: y =>
      if code = 0 then ([], false)
      else if y.length < code.toNat - 1 then (y, false)
      else
        (y.take (code.toNat - 1)
            ++ (if code < 0xFF ∧ y.drop (code.toNat - 1) ≠ [] then [0] else [])
            ++ (decodeTrace (y.drop (code.toNat - 1))).1,
          (decodeTrace (y.drop (code.toNat - 1))).2)
termination_by y.length
decreasing_by
  all_goals
    rw [List.length_drop, List.length_cons]
    omega

/-- The output side holds exactly the bytes stored so far. -/
structure DecodeInv {n : Nat} (s : CobsDecodeState n) (out : List UInt8) : Prop where
  /-- The next store goes behind them. -/
  writeIndex : s.writeIndex = out.length
  /-- They are in the buffer. -/
  output : Written s.output out

theorem DecodeInv.push {n : Nat} {s : CobsDecodeState n} {out : List UInt8}
    (h : DecodeInv s out) (b : UInt8) (hlt : out.length < n) :
    ∃ s', s.push b = .ok s' ∧ DecodeInv s' (out ++ [b]) := by
  obtain ⟨output, ho, hw⟩ := store_snoc b h.output hlt
  refine ⟨⟨s.writeIndex + 1, output⟩, ?_, by simp [h.writeIndex], hw⟩
  rw [CobsDecodeState.push, h.writeIndex, ho, ok_bind]
  rfl

theorem DecodeInv.push_fault {n : Nat} {s : CobsDecodeState n} {out : List UInt8}
    (h : DecodeInv s out) (b : UInt8) (hge : n ≤ out.length) :
    s.push b = .error (.overrun n n) := by
  have hn : out.length = n := Nat.le_antisymm h.output.length_le hge
  rw [CobsDecodeState.push, h.writeIndex, hn, store_fault b (Nat.le_refl n), error_bind]

/-- The copy loop stores the bytes it is asked for, or all there are. -/
theorem cobsDecodeCopy_spec {n : Nat} {s : CobsDecodeState n} {out : List UInt8}
    (count : Nat) (input : List UInt8) (h : DecodeInv s out)
    (hlen : out.length + (input.take count).length ≤ n) :
    ∃ s', cobsDecodeCopy s count input
        = .ok (if input.length < count then none else some (input.drop count), s')
      ∧ DecodeInv s' (out ++ input.take count) := by
  induction count generalizing s out input with
  | zero => exact ⟨s, by simp [cobsDecodeCopy], by simpa using h⟩
  | succ count ih =>
      cases input with
      | nil => exact ⟨s, by simp [cobsDecodeCopy], by simpa using h⟩
      | cons b input =>
          simp only [List.take_succ_cons, List.length_cons] at hlen
          obtain ⟨s₁, hs₁, h₁⟩ := h.push b (by omega)
          obtain ⟨s₂, hs₂, h₂⟩ := ih input h₁ (by simp at hlen ⊢; omega)
          refine ⟨s₂, ?_, by simpa using h₂⟩
          rw [cobsDecodeCopy, hs₁, ok_bind, hs₂]
          simp

theorem cobsDecodeCopy_fault {n : Nat} {s : CobsDecodeState n} {out : List UInt8}
    (count : Nat) (input : List UInt8) (h : DecodeInv s out)
    (hlen : n < out.length + (input.take count).length) :
    cobsDecodeCopy s count input = .error (.overrun n n) := by
  have hle := h.output.length_le
  induction count generalizing s out input with
  | zero => simp at hlen; omega
  | succ count ih =>
      cases input with
      | nil => simp at hlen; omega
      | cons b input =>
          rw [cobsDecodeCopy]
          simp only [List.take_succ_cons, List.length_cons] at hlen
          -- this byte still finds a place, or it is the first that does not
          rcases Nat.lt_or_ge out.length n with hlt | hge
          · obtain ⟨s₁, hs₁, h₁⟩ := h.push b hlt
            rw [hs₁, ok_bind]
            exact ih input h₁ (by simp at hlen ⊢; omega) h₁.output.length_le
          · rw [h.push_fault b hge, error_bind]

/-- One round of the outer loop, past its check for a zero. -/
theorem cobsDecodeLoop_cons {n : Nat} (s : CobsDecodeState n) {code : UInt8} (y : List UInt8)
    (hz : code ≠ 0) :
    cobsDecodeLoop s (code :: y)
      = match cobsDecodeCopy s (code.toNat - 1) y with
        | .error f => .error f
        | .ok (none, s) => .ok (none, s.output)
        | .ok (some y', s) =>
            if code < 0xFF ∧ y' ≠ [] then s.push 0 >>= fun s => cobsDecodeLoop s y'
            else cobsDecodeLoop s y' := by
  rw [cobsDecodeLoop, if_neg hz]
  split <;> rename_i h <;> rw [h]

/--
**The decoder stores its trace, or faults at the end of the buffer.**

The second component of the trace tells the early `return 0` from the return at
the end; the stores are made in either case.
-/
theorem cobsDecodeLoop_spec {n : Nat} {s : CobsDecodeState n} {out : List UInt8}
    (y : List UInt8) (h : DecodeInv s out) :
    ((out ++ (decodeTrace y).1).length ≤ n →
      ∃ output, cobsDecodeLoop s y
          = .ok (if (decodeTrace y).2 then some (out ++ (decodeTrace y).1).length else none, output)
        ∧ Written output (out ++ (decodeTrace y).1))
    ∧ (n < (out ++ (decodeTrace y).1).length →
      cobsDecodeLoop s y = .error (.overrun n n)) := by
  induction y using decodeTrace.induct generalizing s out with
  | case1 =>
      -- the input is read to its end
      have hle := h.output.length_le
      rw [decodeTrace, cobsDecodeLoop, h.writeIndex]
      constructor
      · intro _
        exact ⟨s.output, by simp, by simpa using h.output⟩
      · intro hlt
        simp at hlt
        omega
  | case2 y =>
      -- a code of zero ends the decoding at once
      have hle := h.output.length_le
      rw [decodeTrace, if_pos rfl, cobsDecodeLoop, if_pos rfl]
      constructor
      · intro _
        exact ⟨s.output, rfl, by simpa using h.output⟩
      · intro hlt
        simp at hlt
        omega
  | case3 code y hz hshort =>
      -- the input ends inside the block
      rw [decodeTrace, if_neg hz, if_pos hshort, cobsDecodeLoop_cons s y hz]
      have htake : y.take (code.toNat - 1) = y := List.take_of_length_le (by omega)
      constructor
      · intro hle
        obtain ⟨s₁, hs₁, h₁⟩ := cobsDecodeCopy_spec (code.toNat - 1) y h (by
          rw [htake, ← List.length_append]; exact hle)
        rw [if_pos hshort] at hs₁
        rw [htake] at h₁
        rw [hs₁]
        exact ⟨s₁.output, rfl, h₁.output⟩
      · intro hlt
        rw [cobsDecodeCopy_fault (code.toNat - 1) y h (by
          rw [htake, ← List.length_append]; exact hlt)]
  | case4 code y hz hlong ih =>
      rw [decodeTrace, if_neg hz, if_neg hlong, cobsDecodeLoop_cons s y hz]
      dsimp only
      rcases Nat.lt_or_ge n (out.length + (y.take (code.toNat - 1)).length) with hover | hfit
      · -- the data of the block do not fit
        rw [cobsDecodeCopy_fault _ y h hover]
        constructor
        · intro hle
          simp only [List.length_append] at hle
          omega
        · intro _
          rfl
      · obtain ⟨s₁, hs₁, h₁⟩ := cobsDecodeCopy_spec _ y h hfit
        rw [if_neg hlong] at hs₁
        rw [hs₁]
        dsimp only
        by_cases hzero : code < 0xFF ∧ y.drop (code.toNat - 1) ≠ []
        · rw [if_pos hzero, if_pos hzero]
          rcases Nat.lt_or_ge (out ++ y.take (code.toNat - 1)).length n with hlt | hge
          · obtain ⟨s₂, hs₂, h₂⟩ := h₁.push 0 hlt
            rw [hs₂, ok_bind]
            simpa only [List.append_assoc] using ih h₂
          · -- no place is left for the implied zero
            rw [h₁.push_fault 0 hge, error_bind]
            constructor
            · intro hle
              simp only [List.length_append, List.length_singleton] at hle hge
              omega
            · intro _
              rfl
        · rw [if_neg hzero, if_neg hzero]
          simpa only [List.append_assoc, List.append_nil] using ih h₁

theorem cobsDecode_spec {n : Nat} (y : List UInt8) (output : Vector UInt8 n) :
    ((decodeTrace y).1.length ≤ n →
      ∃ output', cobsDecode y output
          = .ok (if (decodeTrace y).2 then some (decodeTrace y).1.length else none, output')
        ∧ Written output' (decodeTrace y).1)
    ∧ (n < (decodeTrace y).1.length → cobsDecode y output = .error (.overrun n n)) := by
  have h : DecodeInv (n := n) { writeIndex := 0, output } [] := ⟨rfl, written_nil output⟩
  simpa [cobsDecode] using cobsDecodeLoop_spec y h

/-! ## The trace is the unstuffed string -/

theorem parse_eq_nil {y : List UInt8} {rs : List (List UInt8)} (h : parse cobsCoding y = some rs) :
    rs = [] ↔ y = [] := by
  cases y with
  | nil => simp [parse] at h; simp [h]
  | cons b y =>
      rw [parse] at h
      split at h
      · simp at h
      · split at h
        · simp at h
        · obtain ⟨qs, _, hq⟩ := Option.map_eq_some_iff.mp h
          simp [← hq]

/-- **Where the decoder reads the input to its end, it stores the unstuffed string.** -/
theorem unstuff_eq_trace (y : List UInt8) :
    unstuff cobsCoding y = if (decodeTrace y).2 then some (decodeTrace y).1 else none := by
  induction y using decodeTrace.induct with
  | case1 => simp [unstuff, parse, join, decodeTrace]
  | case2 y => simp [unstuff, parse, decodeTrace]
  | case3 code y hz hshort =>
      rw [decodeTrace, if_neg hz, if_pos hshort, unstuff, parse, if_neg hz, cobsCoding_value,
        if_pos hshort]
      rfl
  | case4 code y hz hlong ih =>
      rw [decodeTrace, if_neg hz, if_neg hlong, unstuff, parse, if_neg hz, cobsCoding_value,
        if_neg hlong]
      rw [unstuff] at ih
      have hlen : (y.take (code.toNat - 1)).length = code.toNat - 1 := by
        rw [List.length_take]; omega
      have hcode : code < 0xFF ↔ code.toNat - 1 < 254 := by
        have : code.toNat ≠ 0 := fun h => hz (UInt8.toNat_inj.mp h)
        rw [UInt8.lt_iff_toNat_lt]
        show code.toNat < 255 ↔ _
        omega
      -- the two agree on whether the rest can be read, and on where a zero is implied
      cases hp : parse cobsCoding (y.drop (code.toNat - 1)) with
      | none =>
          rw [hp] at ih
          cases ht : (decodeTrace (y.drop (code.toNat - 1))).2 with
          | true => rw [ht] at ih; simp at ih
          | false => rfl
      | some rs =>
          rw [hp] at ih
          have hnil := parse_eq_nil hp
          cases ht : (decodeTrace (y.drop (code.toNat - 1))).2 with
          | false => rw [ht] at ih; simp at ih
          | true =>
              rw [ht] at ih
              simp only [Option.map_some, if_true, Option.some.injEq] at ih ⊢
              show join 0 254 (y.take (code.toNat - 1) :: rs) = _
              by_cases hrs : rs = []
              · have hy : y.drop (code.toNat - 1) = [] := hnil.mp hrs
                simp [hrs, hy, join, decodeTrace]
              · have hy : y.drop (code.toNat - 1) ≠ [] := fun h => hrs (hnil.mpr h)
                rw [join_cons _ _ _ hrs, hlen, ih]
                simp [hy, hcode]

theorem decodeTrace_of_unstuff {x y : List UInt8} (h : unstuff cobsCoding y = some x) :
    decodeTrace y = (x, true) := by
  rw [unstuff_eq_trace] at h
  split at h
  · rename_i ht
    rw [Option.some.injEq] at h
    exact Prod.ext h ht
  · simp at h

/-- **Decoding an encoding stores the string it was made from.** -/
theorem decodeTrace_cobs (x : List UInt8) : decodeTrace (cobs x) = (x, true) :=
  decodeTrace_of_unstuff (unstuff_stuff cobsCoding (by decide) x)

theorem cobsDecode_cobs {n : Nat} (x : List UInt8) (output : Vector UInt8 n) (hlen : x.length ≤ n) :
    ∃ output', cobsDecode (cobs x) output = .ok (some x.length, output')
      ∧ Written output' x := by
  have h := (cobsDecode_spec (cobs x) output).1
  rw [decodeTrace_cobs] at h
  exact h hlen

theorem cobs_clean (x : List UInt8) : 0 ∉ cobs x := stuff_clean cobsCoding (by decide) x

theorem cobs_length (x : List UInt8) : (cobs x).length ≤ x.length + x.length / 254 + 1 :=
  stuff_length cobsCoding (by decide) x

theorem cobs_length_gt (x : List UInt8) : x.length < (cobs x).length := stuff_length_gt cobsCoding x

/-! ## How much the decoder stores -/

/-- The `0xFF` blocks that come with all their 254 bytes and are followed by more input. -/
def fullBlocks (y : List UInt8) : Nat :=
  match y with
  | [] => 0
  | code :: y =>
      if code = 0 then 0
      else (if code = 0xFF ∧ 254 < y.length then 1 else 0) + fullBlocks (y.drop (code.toNat - 1))
termination_by y.length
decreasing_by
  rw [List.length_drop, List.length_cons]
  omega

/--
**The decoder stores one byte less than it reads, and one less for every full block.**

The first code byte is stored nowhere. Every later one takes the place of an
implied zero, except behind a full block, which implies none. This does not
depend on whether the last block is complete.
-/
theorem decodeTrace_length {y : List UInt8} (hz : 0 ∉ y) (hy : y ≠ []) :
    (decodeTrace y).1.length + 1 + fullBlocks y = y.length := by
  induction y using decodeTrace.induct with
  | case1 => exact absurd rfl hy
  | case2 y => simp at hz
  | case3 code y hc hshort =>
      have hle := code.toNat_lt
      rw [decodeTrace, if_neg hc, if_pos hshort, fullBlocks, if_neg hc, if_neg (by omega),
        List.drop_of_length_le (by omega)]
      simp [fullBlocks]
  | case4 code y hc hlong ih =>
      have hpos : code.toNat ≠ 0 := fun h => hc (UInt8.toNat_inj.mp h)
      have hle := code.toNat_lt
      have hff : code = 0xFF ↔ code.toNat = 255 := UInt8.toNat_inj.symm
      have hlt : code < 0xFF ↔ code.toNat < 255 := UInt8.lt_iff_toNat_lt
      rw [decodeTrace, if_neg hc, if_neg hlong, fullBlocks, if_neg hc]
      rcases Classical.em (y.drop (code.toNat - 1) = []) with hd | hd
      · -- the last block
        have := List.drop_eq_nil_iff.mp hd
        have hlast : ¬(code = 0xFF ∧ 254 < y.length) := by rw [hff]; omega
        rw [hd, if_neg hlast]
        simp [decodeTrace, fullBlocks]
        omega
      · have ih := ih (fun h => hz (List.mem_cons_of_mem _ (List.mem_of_mem_drop h))) hd
        have : code.toNat - 1 < y.length := by
          rcases Nat.lt_or_ge (code.toNat - 1) y.length with h | h
          · exact h
          · exact absurd (List.drop_eq_nil_iff.mpr h) hd
        rw [List.length_drop] at ih
        simp only [List.length_append, List.length_take, List.length_cons, hd, ne_eq,
          not_false_eq_true, and_true, hff, hlt]
        -- a short block gives a zero for its code, a full one does not
        rcases Nat.lt_or_ge code.toNat 255 with h | h
        · rw [if_pos h, if_neg (by omega)]
          simp only [List.length_singleton]
          omega
        · rw [if_neg (by omega), if_pos (by omega)]
          simp only [List.length_nil]
          omega

end MiniHF
