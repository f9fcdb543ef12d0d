/-!
# Streams cut at a delimiter

A stream is a sequence of pieces, each closed by a delimiter, followed by a piece
still open. `complete` are the closed pieces and `rest` is the open one. The two
laws that matter for a reader fed in chunks are `complete_append` and
`rest_append`: what has been closed stays closed, and only the open piece meets
the next chunk.
-/

namespace Delimited

variable {α : Type} [DecidableEq α]

/-- The pieces a delimiter has closed. -/
def complete (z : α) (s : List α) : List (List α) := (s.splitOn z).dropLast

/-- The piece still open. -/
def rest (z : α) (s : List α) : List α := (s.splitOn z).getLast (List.splitOn_ne_nil z s)

theorem complete_of_clean {z : α} {s : List α} (h : z ∉ s) : complete z s = [] := by
  simp [complete, List.splitOn_eq_singleton h]

theorem rest_of_clean {z : α} {s : List α} (h : z ∉ s) : rest z s = s := by
  simp [rest, List.splitOn_eq_singleton h]

theorem complete_append_cons (z : α) (x y : List α) :
    complete z (x ++ z :: y) = x.splitOn z ++ complete z y := by
  rw [complete, complete, List.splitOn_append_cons_self,
    List.dropLast_append_of_ne_nil (List.splitOn_ne_nil z y)]

theorem rest_append_cons (z : α) (x y : List α) : rest z (x ++ z :: y) = rest z y := by
  simp only [rest, List.splitOn_append_cons_self]
  exact List.getLast_append_of_ne_nil _ (List.splitOn_ne_nil z y)

theorem complete_cons_of_clean {z : α} {x : List α} (y : List α) (h : z ∉ x) :
    complete z (x ++ z :: y) = x :: complete z y := by
  rw [complete_append_cons, List.splitOn_eq_singleton h, List.singleton_append]

omit [DecidableEq α] in
/-- Every stream is clean, or a clean piece closed by a delimiter and more. -/
theorem clean_or_split (z : α) (s : List α) :
    z ∉ s ∨ ∃ x y, s = x ++ z :: y ∧ z ∉ x := by
  rcases Classical.em (z ∈ s) with h | h
  · exact Or.inr (List.eq_append_cons_of_mem h)
  · exact Or.inl h

/-! ## Reading in chunks -/

/-- **What has been closed stays closed**; the open piece is continued by what follows. -/
theorem complete_append (z : α) (s t : List α) :
    complete z (s ++ t) = complete z s ++ complete z (rest z s ++ t) := by
  rcases clean_or_split z s with h | ⟨x, y, hs, _⟩
  · rw [complete_of_clean h, rest_of_clean h, List.nil_append]
  · have : y.length < s.length := by rw [hs]; simp; omega
    rw [hs, List.append_assoc, List.cons_append, complete_append_cons, complete_append_cons,
      rest_append_cons, complete_append z y t, List.append_assoc]
termination_by s.length

theorem rest_append (z : α) (s t : List α) : rest z (s ++ t) = rest z (rest z s ++ t) := by
  rcases clean_or_split z s with h | ⟨x, y, hs, _⟩
  · rw [rest_of_clean h]
  · have : y.length < s.length := by rw [hs]; simp; omega
    rw [hs, List.append_assoc, List.cons_append, rest_append_cons, rest_append_cons,
      rest_append z y t]
termination_by s.length

/-- The open piece holds no delimiter. -/
theorem rest_clean (z : α) (s : List α) : z ∉ rest z s := by
  rcases clean_or_split z s with h | ⟨x, y, hs, _⟩
  · rw [rest_of_clean h]
    exact h
  · have : y.length < s.length := by rw [hs]; simp; omega
    rw [hs, rest_append_cons]
    exact rest_clean z y
termination_by s.length

/-- A delimiter closes the open piece. -/
theorem complete_snoc (z : α) (s : List α) : complete z (s ++ [z]) = complete z s ++ [rest z s] := by
  rw [complete_append, complete_cons_of_clean [] (rest_clean z s), complete_of_clean List.not_mem_nil]

theorem rest_snoc_self (z : α) (s : List α) : rest z (s ++ [z]) = [] := by
  rw [rest_append_cons, rest_of_clean List.not_mem_nil]

/-- Anything else continues it. -/
theorem rest_snoc {z a : α} (s : List α) (h : a ≠ z) : rest z (s ++ [a]) = rest z s ++ [a] := by
  rw [rest_append, rest_of_clean]
  simp only [List.mem_append, List.mem_singleton, not_or]
  exact ⟨rest_clean z s, fun he => h he.symm⟩

/-- There are as many closed pieces as delimiters. -/
theorem complete_length (z : α) (s : List α) : (complete z s).length = s.count z := by
  rcases clean_or_split z s with h | ⟨x, y, hs, hx⟩
  · rw [complete_of_clean h, List.count_eq_zero.mpr h]
    rfl
  · have : y.length < s.length := by rw [hs]; simp; omega
    rw [hs, complete_cons_of_clean y hx, List.length_cons, complete_length z y, List.count_append,
      List.count_eq_zero.mpr hx, List.count_cons_self, Nat.zero_add]
termination_by s.length

/-- The pieces of a prefix are a prefix of the pieces. -/
theorem complete_prefix (z : α) {s t : List α} (h : s <+: t) : complete z s <+: complete z t := by
  obtain ⟨u, rfl⟩ := h
  rw [complete_append]
  exact List.prefix_append _ _

/-! ## Streams of closed frames -/

/-- Close every frame with the delimiter and send them one after another. -/
def close (z : α) (fs : List (List α)) : List α := fs.flatMap (· ++ [z])

/-- **Cutting a stream of closed frames gives the frames back.** -/
theorem complete_close {z : α} {fs : List (List α)} (h : ∀ f ∈ fs, z ∉ f) :
    complete z (close z fs) = fs := by
  induction fs with
  | nil => simp [close, complete]
  | cons f fs ih =>
      have ih := ih (fun g hg => h g (List.mem_cons_of_mem _ hg))
      rw [close, List.flatMap_cons, List.append_assoc, List.singleton_append,
        complete_cons_of_clean _ (h f (by simp))]
      exact congrArg (f :: ·) ih

theorem rest_close (z : α) (fs : List (List α)) : rest z (close z fs) = [] := by
  induction fs with
  | nil => simp [close, rest]
  | cons f fs ih =>
      rw [close, List.flatMap_cons, List.append_assoc, List.singleton_append, rest_append_cons]
      exact ih

/-- In the middle of such a stream the open piece is the beginning of a frame. -/
theorem rest_of_close {z : α} {fs : List (List α)} (hfs : ∀ f ∈ fs, z ∉ f) {s t : List α}
    (h : s ++ t = close z fs) : rest z s = [] ∨ ∃ f ∈ fs, rest z s <+: f := by
  have hcomplete : complete z s ++ complete z (rest z s ++ t) = fs := by
    rw [← complete_append, h, complete_close hfs]
  have hrest : rest z (rest z s ++ t) = [] := by
    rw [← rest_append, h, rest_close]
  rcases clean_or_split z (rest z s ++ t) with hclean | ⟨x, y, hxy, hx⟩
  · rw [rest_of_clean hclean] at hrest
    exact Or.inl (List.append_eq_nil_iff.mp hrest).1
  · refine Or.inr ⟨x, ?_, ?_⟩
    · rw [← hcomplete, hxy, complete_cons_of_clean y hx]
      simp
    · -- the first delimiter comes from `t`
      rcases List.append_eq_append_iff.mp hxy with ⟨a, ha, _⟩ | ⟨a, ha, hb⟩
      · exact ⟨a, ha.symm⟩
      · cases a with
        | nil => exact ⟨[], by rw [ha]; simp⟩
        | cons b a =>
            rw [List.cons_append, List.cons.injEq] at hb
            refine absurd (rest_clean z s) (fun hnot => hnot ?_)
            rw [ha, ← hb.1]
            simp

/-- Where such a stream has a delimiter, the open piece is a whole frame, and which one. -/
theorem rest_of_close_cons {z : α} {fs : List (List α)} (hfs : ∀ f ∈ fs, z ∉ f) {s t : List α}
    (h : s ++ z :: t = close z fs) : fs[s.count z]? = some (rest z s) := by
  have hpre : complete z (s ++ [z]) <+: fs := by
    have hs : s ++ [z] <+: close z fs := ⟨t, by rw [← h, List.append_assoc]; rfl⟩
    have := complete_prefix z hs
    rwa [complete_close hfs] at this
  rw [complete_snoc] at hpre
  obtain ⟨more, hmore⟩ := hpre
  rw [← hmore, ← complete_length, List.append_assoc, List.getElem?_append_right (Nat.le_refl _),
    Nat.sub_self]
  rfl

end Delimited
