import MiniHF.Lib.Buffer

/-!
# COBS, as `cobs.c` computes it

Both functions read `length` bytes through an index that only moves forward, so
the unread part of the input is a list; the output is the caller's buffer, and
every store to it is checked. `cobsEncode` reserves a place for a code byte by
moving `writeIndex` past it and comes back to it through `codeIndex`.
-/

namespace MiniHF

open Buffer

/-- The locals of `cobs_encode`. -/
structure CobsEncodeState (n : Nat) where
  writeIndex : Nat
  codeIndex : Nat
  code : UInt8
  output : Vector UInt8 n

/-- The loop of `cobs_encode`, over the bytes not read yet. -/
def cobsEncodeLoop {n : Nat} (s : CobsEncodeState n) :
    List UInt8 → Except Fault (CobsEncodeState n)
  | [] => .ok s
  | b :: input =>
      if b = 0 then do
        let output ← store s.output s.codeIndex s.code
        cobsEncodeLoop
          { writeIndex := s.writeIndex + 1, codeIndex := s.writeIndex, code := 1, output } input
      else do
        let output ← store s.output s.writeIndex b
        let writeIndex := s.writeIndex + 1
        let code := s.code + 1
        if code = 0xFF then
          let output ← store output s.codeIndex code
          cobsEncodeLoop
            { writeIndex := writeIndex + 1, codeIndex := writeIndex, code := 1, output } input
        else
          cobsEncodeLoop { s with writeIndex, code, output } input

/-- `cobs_encode`: the length it returns and the output buffer it leaves. -/
def cobsEncode {n : Nat} (input : List UInt8) (output : Vector UInt8 n) :
    Except Fault (Nat × Vector UInt8 n) := do
  let s ← cobsEncodeLoop { writeIndex := 1, codeIndex := 0, code := 1, output } input
  let output ← store s.output s.codeIndex s.code
  return (s.writeIndex, output)

/-- The output side of `cobs_decode`. -/
structure CobsDecodeState (n : Nat) where
  writeIndex : Nat
  output : Vector UInt8 n

/-- `output[write_index++] = b`. -/
def CobsDecodeState.push {n : Nat} (s : CobsDecodeState n) (b : UInt8) :
    Except Fault (CobsDecodeState n) := do
  let output ← store s.output s.writeIndex b
  return { writeIndex := s.writeIndex + 1, output }

/-- The `for` loop: copy `count` bytes. The input left over, or `none` if it ran out first. -/
def cobsDecodeCopy {n : Nat} (s : CobsDecodeState n) :
    Nat → List UInt8 → Except Fault (Option (List UInt8) × CobsDecodeState n)
  | 0, input => .ok (some input, s)
  | _ + 1, [] => .ok (none, s)
  | count + 1, b :: input => do
      let s ← s.push b
      cobsDecodeCopy s count input

theorem cobsDecodeCopy_length {n : Nat} {s s' : CobsDecodeState n} {count : Nat}
    {input input' : List UInt8}
    (h : cobsDecodeCopy s count input = .ok (some input', s')) : input'.length ≤ input.length := by
  induction count generalizing s input with
  | zero =>
      simp only [cobsDecodeCopy, Except.ok.injEq, Prod.mk.injEq, Option.some.injEq] at h
      exact Nat.le_of_eq (congrArg List.length h.1.symm)
  | succ count ih =>
      cases input with
      | nil => simp [cobsDecodeCopy] at h
      | cons b input =>
          rw [cobsDecodeCopy] at h
          cases hs : s.push b with
          | error f => rw [hs] at h; simp at h
          | ok s₁ =>
              rw [hs, ok_bind] at h
              exact Nat.le_succ_of_le (ih h)

/--
The outer loop of `cobs_decode`. The first component is `none` where the function
returns 0 early and the returned length where the loop runs to the end.
-/
def cobsDecodeLoop {n : Nat} (s : CobsDecodeState n) (input : List UInt8) :
    Except Fault (Option Nat × Vector UInt8 n) :=
  match input with
  | [] => .ok (some s.writeIndex, s.output)
  | code :: input =>
      if code = 0 then .ok (none, s.output)
      else
        match _h : cobsDecodeCopy s (code.toNat - 1) input with
        | .error f => .error f
        | .ok (none, s) => .ok (none, s.output)
        | .ok (some input', s) =>
            if code < 0xFF ∧ input' ≠ [] then do
              let s ← s.push 0
              cobsDecodeLoop s input'
            else
              cobsDecodeLoop s input'
termination_by input.length
decreasing_by
  all_goals
    have := cobsDecodeCopy_length ‹_›
    simp only [List.length_cons]
    omega

/-- `cobs_decode`, with its early `return 0` kept apart from a decoded length of 0. -/
def cobsDecode {n : Nat} (input : List UInt8) (output : Vector UInt8 n) :
    Except Fault (Option Nat × Vector UInt8 n) :=
  cobsDecodeLoop { writeIndex := 0, output } input

end MiniHF
