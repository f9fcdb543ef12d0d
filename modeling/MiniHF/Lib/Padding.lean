/-!
# Justified lists

`List.leftpad n a l` puts copies of `a` in front of `l` until there are `n` items.
Leading copies that `l` has itself are not told apart from those: two lists pad to
the same one exactly when they agree without them. `List.rightpad` puts them
behind, and there it is the copies at the end that are lost.
-/

namespace Padding

variable {α : Type} [BEq α] [LawfulBEq α] {n : Nat} {a : α}

/-- Padding adds nothing that dropping leading copies would keep. -/
theorem dropWhile_leftpad (l : List α) :
    (List.leftpad n a l).dropWhile (· == a) = l.dropWhile (· == a) := by
  unfold List.leftpad
  induction n - l.length with
  | zero => rfl
  | succ k ih => rw [List.replicate_succ, List.cons_append, List.dropWhile_cons_of_pos (by simp), ih]

/-- Leading copies dropped come back as padding. -/
theorem leftpad_dropWhile {l : List α} (h : l.length ≤ n) :
    List.leftpad n a (l.dropWhile (· == a)) = List.leftpad n a l := by
  induction l with
  | nil => rfl
  | cons x l ih =>
      rw [List.length_cons] at h
      by_cases hx : x = a
      · subst hx
        have hone : n - l.length = n - (l.length + 1) + 1 := by omega
        rw [List.dropWhile_cons_of_pos (by simp), ih (by omega), List.leftpad, List.leftpad, hone,
          List.replicate_succ', List.length_cons, List.append_assoc]
        rfl
      · rw [List.dropWhile_cons_of_neg (by simpa using hx)]

/-- Lists pad to the same one when they are the same without leading copies. -/
theorem leftpad_eq_iff {l m : List α} (hl : l.length ≤ n) (hm : m.length ≤ n) :
    List.leftpad n a l = List.leftpad n a m ↔ l.dropWhile (· == a) = m.dropWhile (· == a) := by
  constructor
  · intro h
    rw [← dropWhile_leftpad (n := n) l, h, dropWhile_leftpad]
  · intro h
    rw [← leftpad_dropWhile hl, h, leftpad_dropWhile hm]

/-- Copies behind a list are told apart from it when it does not end in one. -/
theorem rightpad_inj {l m : List α} (hl : l.getLast? ≠ some a) (hm : m.getLast? ≠ some a)
    (h : List.rightpad n a l = List.rightpad n a m) : l = m := by
  -- read from the end, the copies are leading ones
  have hdrop : ∀ k : List α, k.getLast? ≠ some a →
      ((List.rightpad n a k).reverse).dropWhile (· == a) = k.reverse := by
    intro k hk
    have hleft : (List.rightpad n a k).reverse = List.leftpad n a k.reverse := by
      rw [List.rightpad, List.reverse_append, List.reverse_replicate, List.leftpad,
        List.length_reverse]
    rw [hleft, dropWhile_leftpad]
    rw [← List.head?_reverse] at hk
    generalize k.reverse = r at hk
    cases r with
    | nil => rfl
    | cons x r =>
        have hx : x ≠ a := fun hx => hk (by rw [hx]; rfl)
        rw [List.dropWhile_cons_of_neg (by simpa using hx)]
  have := hdrop l hl
  rw [h, hdrop m hm] at this
  exact (List.reverse_inj.mp this).symm

omit [BEq α] [LawfulBEq α] in
/-- The last place holds the last item. -/
theorem leftpad_succ (n : Nat) (a : α) (l : List α) :
    List.leftpad (n + 1) a l = List.leftpad n a l.dropLast ++ [l.getLast?.getD a] := by
  by_cases hl : l = []
  · subst hl
    simp [List.leftpad, List.replicate_succ']
  · have hlen := List.length_pos_iff.mpr hl
    rw [List.getLast?_eq_some_getLast hl, Option.getD_some, List.leftpad, List.leftpad,
      List.append_assoc, List.dropLast_concat_getLast hl, List.length_dropLast,
      show n + 1 - l.length = n - (l.length - 1) by omega]

end Padding
