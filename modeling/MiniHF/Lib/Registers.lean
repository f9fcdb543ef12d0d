/-!
# Registers behind a bus

A chip is a bank of registers. A message names one and brings the values for it and
for the ones behind it, `next` after `next`. A message that fails may have brought
some of them before it did.

What is said of a message is where it can write, what stands there afterwards, and
that it does the same wherever two banks agree.
-/

namespace Registers

variable {α β : Type} {next : α → α}

/-- The `n` registers from `a` on. -/
def span (next : α → α) (a : α) : Nat → List α
  | 0 => []
  | n + 1 => a :: span next (next a) n

@[simp] theorem span_length (a : α) (n : Nat) : (span next a n).length = n := by
  induction n generalizing a with
  | zero => rfl
  | succ n ih => rw [span, List.length_cons, ih]

theorem span_mono {a r : α} {n m : Nat} (h : n ≤ m) (hr : r ∈ span next a n) :
    r ∈ span next a m := by
  induction n generalizing a m with
  | zero => cases hr
  | succ n ih =>
      cases m with
      | zero => omega
      | succ m =>
          rcases List.mem_cons.mp hr with rfl | hr
          · exact List.mem_cons_self
          · exact List.mem_cons_of_mem _ (ih (by omega) hr)

variable [DecidableEq α]

/-- Write one register. -/
def write (regs : α → β) (a : α) (b : β) : α → β := fun r => if r = a then b else regs r

@[simp] theorem write_self (regs : α → β) (a : α) (b : β) : write regs a b a = b := if_pos rfl

theorem write_other (regs : α → β) {a r : α} (b : β) (h : r ≠ a) : write regs a b r = regs r :=
  if_neg h

/-- Write register after register. -/
def burst (next : α → α) (regs : α → β) (a : α) : List β → α → β
  | [] => regs
  | b :: bs => burst next (write regs a b) (next a) bs

/-- **A burst stays in its span.** -/
theorem burst_outside {regs : α → β} {a r : α} {bs : List β} (h : r ∉ span next a bs.length) :
    burst next regs a bs r = regs r := by
  induction bs generalizing regs a with
  | nil => rfl
  | cons b bs ih =>
      rw [burst, ih (List.not_mem_of_not_mem_cons h), write_other regs b (List.ne_of_not_mem_cons h)]

/-- **What a burst brings can be read back**, when it does not come round. -/
theorem burst_window {regs : α → β} {a : α} {bs : List β} (h : (span next a bs.length).Nodup) :
    (span next a bs.length).map (burst next regs a bs) = bs := by
  induction bs generalizing regs a with
  | nil => rfl
  | cons b bs ih =>
      obtain ⟨hnot, hnodup⟩ := List.nodup_cons.mp h
      rw [List.length_cons, span, List.map_cons, burst, ih hnodup, burst_outside hnot, write_self]

/-- **What two banks share of a register, they share after a burst.** -/
theorem burst_agree {γ : Type} (part : β → γ) {regs regs' : α → β} {a r : α} {bs : List β}
    (h : part (regs r) = part (regs' r)) :
    part (burst next regs a bs r) = part (burst next regs' a bs r) := by
  induction bs generalizing regs regs' a with
  | nil => exact h
  | cons b bs ih =>
      refine ih ?_
      rw [write, write]
      split
      · rfl
      · exact h

/-- The burst of a message, a register and the values. -/
def deliver (next : α → α) (regs : α → α) : List α → α → α
  | [] => regs
  | a :: bs => burst next regs a bs

theorem deliver_agree {γ : Type} (part : α → γ) {regs regs' : α → α} {r : α} (message : List α)
    (h : part (regs r) = part (regs' r)) :
    part (deliver next regs message r) = part (deliver next regs' message r) := by
  cases message with
  | nil => exact h
  | cons a bs => exact burst_agree part h

/-- A message, whole or cut short, stays in the span of the whole message. -/
theorem deliver_outside {regs : α → α} {a r : α} {bs : List α} (n : Nat)
    (h : r ∉ span next a bs.length) : deliver next regs ((a :: bs).take n) r = regs r := by
  cases n with
  | zero => rfl
  | succ n =>
      rw [List.take_succ_cons, deliver]
      refine burst_outside fun hmem => h ?_
      refine span_mono ?_ hmem
      rw [List.length_take]
      exact Nat.min_le_right _ _

end Registers
