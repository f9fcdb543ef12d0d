/-!
# Bounded first-in first-out queues

A queue that never holds more than `cap` items. There are two ways to add to it:
`put` stores the prefix that fits and says how much that was, `offer` stores one
item or refuses. The bound is a field, so a queue over its capacity cannot be
written down.
-/

/-- A queue of at most `cap` items, oldest first. -/
structure Fifo (α : Type) (cap : Nat) where
  /-- The queued items, oldest first. -/
  items : List α
  /-- The capacity is respected. -/
  fits : items.length ≤ cap
deriving DecidableEq

namespace Fifo

variable {α : Type} {cap : Nat}

/-- The empty queue. -/
def empty : Fifo α cap := ⟨[], Nat.zero_le _⟩

/-- How many more items fit. -/
def space (q : Fifo α cap) : Nat := cap - q.items.length

/-- Store the prefix of `xs` that fits. -/
def put (q : Fifo α cap) (xs : List α) : Fifo α cap :=
  ⟨q.items ++ xs.take q.space, by
    have := q.fits
    simp only [List.length_append, List.length_take, space]
    omega⟩

/-- How many items of `xs` `put` stores. -/
def putCount (q : Fifo α cap) (xs : List α) : Nat := min xs.length q.space

/-- Remove up to `n` items. -/
def get (q : Fifo α cap) (n : Nat) : List α × Fifo α cap :=
  (q.items.take n, ⟨q.items.drop n, by have := q.fits; rw [List.length_drop]; omega⟩)

/-- Store one item, or refuse. -/
def offer (q : Fifo α cap) (x : α) : Option (Fifo α cap) :=
  if h : q.items.length < cap then some ⟨q.items ++ [x], by rw [List.length_append]; exact h⟩ else none

@[ext] theorem ext {q r : Fifo α cap} (h : q.items = r.items) : q = r := by
  cases q; cases r; cases h; rfl

@[simp] theorem empty_items : (empty : Fifo α cap).items = [] := rfl

theorem put_items (q : Fifo α cap) (xs : List α) :
    (q.put xs).items = q.items ++ xs.take q.space := rfl

/-- What is stored is as much as the count says. -/
theorem put_items_count (q : Fifo α cap) (xs : List α) :
    (q.put xs).items = q.items ++ xs.take (q.putCount xs) := by
  rw [put_items, putCount, Nat.min_comm, ← List.take_eq_take_min]

/-- What fits is stored whole. -/
theorem put_whole {q : Fifo α cap} {xs : List α} (h : xs.length ≤ q.space) :
    (q.put xs).items = q.items ++ xs := by
  rw [put_items, List.take_of_length_le h]

/-- Storing in two parts is storing the whole. -/
theorem put_append (q : Fifo α cap) (xs ys : List α) : q.put (xs ++ ys) = (q.put xs).put ys := by
  apply ext
  simp only [put_items, List.append_assoc, List.take_append, space, List.length_append,
    List.length_take]
  congr 3
  omega

theorem put_nil (q : Fifo α cap) : q.put [] = q := ext (by simp [put_items])

/-- A full queue stores nothing. -/
theorem put_full {q : Fifo α cap} {xs : List α} (h : q.space = 0) : (q.put xs).items = q.items := by
  rw [put_items, h, List.take_zero, List.append_nil]

@[simp] theorem get_snd_items (q : Fifo α cap) (n : Nat) :
    (q.get n).2.items = q.items.drop n := rfl

theorem offer_eq_some {q r : Fifo α cap} {x : α} :
    q.offer x = some r ↔ q.items.length < cap ∧ r.items = q.items ++ [x] := by
  unfold offer
  split
  · rename_i h
    rw [Option.some.injEq]
    exact ⟨fun he => ⟨h, by rw [← he]⟩, fun he => ext he.2.symm⟩
  · rename_i h
    simp [h]

theorem offer_eq_none {q : Fifo α cap} {x : α} : q.offer x = none ↔ cap ≤ q.items.length := by
  unfold offer
  split <;> simp <;> omega

end Fifo
