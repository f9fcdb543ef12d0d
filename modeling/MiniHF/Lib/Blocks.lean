/-!
# Lists of blocks

`xs.flatMap f` is a list of blocks when all `f x` have one length. The first blocks
are then the first items, and the blocks determine the items if each does.
-/

namespace Blocks

variable {α β : Type} {f : α → List β} {m : Nat}

theorem flatMap_length (hf : ∀ x, (f x).length = m) (xs : List α) :
    (xs.flatMap f).length = xs.length * m := by
  induction xs with
  | nil => exact (Nat.zero_mul m).symm
  | cons x xs ih =>
      rw [List.flatMap_cons, List.length_append, hf, ih, List.length_cons, Nat.succ_mul, Nat.add_comm]

/-- The first `k` blocks are those of the first `k` items. -/
theorem flatMap_take (hf : ∀ x, (f x).length = m) (k : Nat) (xs : List α) :
    (xs.flatMap f).take (k * m) = (xs.take k).flatMap f := by
  induction k generalizing xs with
  | zero => rw [Nat.zero_mul, List.take_zero, List.take_zero]; rfl
  | succ k ih =>
      cases xs with
      | nil => exact List.take_nil
      | cons x xs =>
          rw [List.flatMap_cons, List.take_succ_cons, List.flatMap_cons, List.take_append, hf,
            Nat.succ_mul, Nat.add_sub_cancel, ih,
            List.take_of_length_le (by rw [hf]; exact Nat.le_add_left m _)]

/-- **Blocks determine the items.** -/
theorem flatMap_inj (hf : ∀ x, (f x).length = m) (hm : 0 < m)
    (hinj : ∀ x y, f x = f y → x = y) {xs ys : List α} (h : xs.flatMap f = ys.flatMap f) :
    xs = ys := by
  induction xs generalizing ys with
  | nil =>
      cases ys with
      | nil => rfl
      | cons y ys =>
          have := congrArg List.length h
          rw [List.flatMap_cons, List.length_append, hf, List.flatMap_nil, List.length_nil] at this
          omega
  | cons x xs ih =>
      cases ys with
      | nil =>
          have := congrArg List.length h
          rw [List.flatMap_cons, List.length_append, hf, List.flatMap_nil, List.length_nil] at this
          omega
      | cons y ys =>
          rw [List.flatMap_cons, List.flatMap_cons] at h
          obtain ⟨hxy, hrest⟩ := List.append_inj h (by rw [hf, hf])
          rw [hinj x y hxy, ih hrest]

end Blocks
