/-!
# Codes with a register

An encoder reads one input after the other. Each moves the register on, and the
register gives what is put out for it. An input can so have a say in many outputs,
and it takes one condition to read all of them back: from one register, two inputs
never give the same output (`Distinguishes`). Then the first output gives the first
input, both give the next register, and so on.
-/

namespace Trellis

variable {σ β ο : Type}

/-- How an input moves the register on, and what a register puts out. -/
structure Encoder (σ β ο : Type) where
  shift : σ → β → σ
  out : σ → ο

variable (e : Encoder σ β ο)

/-- What is put out for a list of inputs. -/
def Encoder.encode (s : σ) : List β → List ο
  | [] => []
  | b :: bs => e.out (e.shift s b) :: Encoder.encode (e.shift s b) bs

/-- The register in the end. -/
def Encoder.final (s : σ) (bs : List β) : σ := bs.foldl e.shift s

/-- The output tells the inputs apart. -/
def Encoder.Distinguishes : Prop :=
  ∀ s b c, e.out (e.shift s b) = e.out (e.shift s c) → b = c

theorem encode_length (s : σ) (bs : List β) : (e.encode s bs).length = bs.length := by
  induction bs generalizing s with
  | nil => rfl
  | cons b bs ih => rw [Encoder.encode, List.length_cons, ih, List.length_cons]

theorem encode_append (s : σ) (bs cs : List β) :
    e.encode s (bs ++ cs) = e.encode s bs ++ e.encode (e.final s bs) cs := by
  induction bs generalizing s with
  | nil => rfl
  | cons b bs ih =>
      rw [List.cons_append, Encoder.encode, Encoder.encode, ih]
      rfl

variable {e}

/-- **What is put out determines what was read.** -/
theorem encode_inj (he : e.Distinguishes) {s : σ} {bs cs : List β}
    (h : e.encode s bs = e.encode s cs) : bs = cs := by
  induction bs generalizing s cs with
  | nil =>
      cases cs with
      | nil => rfl
      | cons c cs => cases h
  | cons b bs ih =>
      cases cs with
      | nil => cases h
      | cons c cs =>
          rw [Encoder.encode, Encoder.encode, List.cons.injEq] at h
          obtain ⟨hout, hrest⟩ := h
          have hbc : b = c := he s b c hout
          subst hbc
          rw [ih hrest]

end Trellis
