/-!
# Consistent-overhead stuffing

A byte string that may contain a delimiter is cut into *runs* without it. A run
ends at a delimiter or when it has reached the maximal length `m`; it is written
as a code for its length followed by its symbols. A run shorter than `m` stands
for itself and the delimiter that closed it, a run of length `m` for itself only,
and the last run never stands for a delimiter.

Nothing here knows the alphabet. A symbol type, a delimiter `z`, a bound `m` and
a way to write lengths as symbols other than `z` (`Coding`) are all it takes.

The two directions are separate theorems. `join_runs` is the round trip, and
`runs_join` is its converse: a list of runs that ends in a short one is the list
the splitter finds again.
-/

namespace Stuffing

variable {α : Type} [DecidableEq α]

/-- Cut the input into runs; `acc` is the run being collected. -/
def runsFrom (z : α) (m : Nat) (acc : List α) : List α → List (List α)
  | [] => [acc]
  | a :: x =>
      if a = z then acc :: runsFrom z m [] x
      else if acc.length + 1 = m then (acc ++ [a]) :: runsFrom z m [] x
      else runsFrom z m (acc ++ [a]) x

/-- The runs of a string. -/
def runs (z : α) (m : Nat) (x : List α) : List (List α) := runsFrom z m [] x

/-- Put the runs together again, with the delimiters the short ones imply. -/
def join (z : α) (m : Nat) : List (List α) → List α
  | [] => []
  | [r] => r
  | r :: r' :: rs => r ++ (if r.length < m then [z] else []) ++ join z m (r' :: rs)

omit [DecidableEq α] in
theorem join_cons (z : α) (m : Nat) (r : List α) {rs : List (List α)} (h : rs ≠ []) :
    join z m (r :: rs) = r ++ (if r.length < m then [z] else []) ++ join z m rs := by
  cases rs with
  | nil => exact absurd rfl h
  | cons r' rs => rfl

theorem runsFrom_ne_nil (z : α) (m : Nat) (acc x : List α) : runsFrom z m acc x ≠ [] := by
  induction x generalizing acc with
  | nil => simp [runsFrom]
  | cons a x ih =>
      rw [runsFrom]
      split
      · simp
      · split
        · simp
        · exact ih _

/-- What a list of runs must look like to be one the splitter produces. -/
structure WellRun (z : α) (m : Nat) (rs : List (List α)) : Prop where
  /-- No run holds the delimiter. -/
  clean : ∀ r ∈ rs, z ∉ r
  /-- No run is longer than `m`. -/
  short : ∀ r ∈ rs, r.length ≤ m

omit [DecidableEq α] in
theorem WellRun.tail {z : α} {m : Nat} {r : List α} {rs : List (List α)}
    (h : WellRun z m (r :: rs)) : WellRun z m rs :=
  ⟨fun q hq => h.clean q (List.mem_cons_of_mem _ hq),
    fun q hq => h.short q (List.mem_cons_of_mem _ hq)⟩

omit [DecidableEq α] in
theorem WellRun.cons {z : α} {m : Nat} {r : List α} {rs : List (List α)}
    (hz : z ∉ r) (hr : r.length ≤ m) (h : WellRun z m rs) : WellRun z m (r :: rs) :=
  ⟨List.forall_mem_cons.mpr ⟨hz, h.clean⟩, List.forall_mem_cons.mpr ⟨hr, h.short⟩⟩

omit [DecidableEq α] in
/-- The empty run may always be added at the end. -/
theorem WellRun.snoc_nil {z : α} {m : Nat} {rs : List (List α)} (h : WellRun z m rs) :
    WellRun z m (rs ++ [[]]) := by
  constructor <;> intro q hq
  · rcases List.mem_append.mp hq with hq | hq
    · exact h.clean q hq
    · rw [List.mem_singleton.mp hq]; simp
  · rcases List.mem_append.mp hq with hq | hq
    · exact h.short q hq
    · rw [List.mem_singleton.mp hq]; simp

theorem runsFrom_wellRun {z : α} {m : Nat} {acc : List α} (x : List α)
    (hacc : acc.length < m) (hz : z ∉ acc) : WellRun z m (runsFrom z m acc x) := by
  induction x generalizing acc with
  | nil =>
      constructor <;> intro r hr <;> simp only [runsFrom, List.mem_singleton] at hr <;> subst hr
      · exact hz
      · omega
  | cons a x ih =>
      rw [runsFrom]
      split
      · exact (ih (by simp; omega) (by simp)).cons hz (by omega)
      · rename_i ha
        have hz' : z ∉ acc ++ [a] := by
          simp only [List.mem_append, List.mem_singleton, not_or]
          exact ⟨hz, fun he => ha he.symm⟩
        split
        · exact (ih (by simp; omega) (by simp)).cons hz' (by simp; omega)
        · exact ih (by simp; omega) hz'

/-! ## Round trip -/

theorem join_runsFrom {z : α} {m : Nat} {acc : List α} (x : List α) (hacc : acc.length < m) :
    join z m (runsFrom z m acc x) = acc ++ x := by
  induction x generalizing acc with
  | nil => simp [runsFrom, join]
  | cons a x ih =>
      rw [runsFrom]
      split
      · rename_i ha
        rw [join_cons _ _ _ (runsFrom_ne_nil z m [] x), if_pos hacc, ih (by simp; omega), ha]
        simp
      · split
        · rename_i hfull
          rw [join_cons _ _ _ (runsFrom_ne_nil z m [] x), if_neg (by simp; omega), ih (by simp; omega)]
          simp
        · rw [ih (by simp; omega)]
          simp

/-- **Joining the runs of a string gives the string back.** -/
theorem join_runs {z : α} {m : Nat} (hm : 0 < m) (x : List α) : join z m (runs z m x) = x := by
  rw [runs, join_runsFrom x hm, List.nil_append]

/-! ## The splitter finds the same runs again -/

/-- A short stretch without delimiters only extends the run being collected. -/
theorem runsFrom_append {z : α} {m : Nat} {acc : List α} (r x : List α)
    (hz : z ∉ r) (hlen : acc.length + r.length < m) :
    runsFrom z m acc (r ++ x) = runsFrom z m (acc ++ r) x := by
  induction r generalizing acc with
  | nil => simp
  | cons a r ih =>
      simp only [List.length_cons] at hlen
      have ha : a ≠ z := fun he => hz (by simp [he])
      rw [List.cons_append, runsFrom, if_neg ha, if_neg (by omega),
        ih (fun h => hz (List.mem_cons_of_mem _ h)) (by simp; omega)]
      simp

/-- A stretch that fills the run closes it. -/
theorem runsFrom_append_full {z : α} {m : Nat} {acc : List α} (r x : List α)
    (hz : z ∉ r) (hr : r ≠ []) (hlen : acc.length + r.length = m) :
    runsFrom z m acc (r ++ x) = (acc ++ r) :: runsFrom z m [] x := by
  induction r generalizing acc with
  | nil => exact absurd rfl hr
  | cons a r ih =>
      simp only [List.length_cons] at hlen
      have ha : a ≠ z := fun he => hz (by simp [he])
      rw [List.cons_append, runsFrom, if_neg ha]
      cases r with
      | nil => rw [if_pos (by simpa using hlen)]; rfl
      | cons b r =>
          rw [if_neg (by simp at hlen; omega),
            ih (fun h => hz (List.mem_cons_of_mem _ h)) (by simp) (by simp at hlen ⊢; omega)]
          simp

/-- **A list of runs ending in a short one is what the splitter produces.** -/
theorem runs_join {z : α} {m : Nat} (hm : 0 < m) {rs : List (List α)} {last : List α}
    (h : WellRun z m (rs ++ [last])) (hlast : last.length < m) :
    runs z m (join z m (rs ++ [last])) = rs ++ [last] := by
  induction rs with
  | nil =>
      have hz : z ∉ last := h.clean last (by simp)
      have hx : runsFrom z m [] (last ++ []) = runsFrom z m ([] ++ last) [] :=
        runsFrom_append last [] hz (by simpa using hlast)
      simpa [runs, join, runsFrom] using hx
  | cons r rs ih =>
      have htail : WellRun z m (rs ++ [last]) := h.tail
      have hz : z ∉ r := h.clean r (by simp)
      have hle : r.length ≤ m := h.short r (by simp)
      rw [List.cons_append, join_cons _ _ _ (by simp), runs]
      by_cases hr : r.length < m
      · -- a short run was closed by a delimiter
        rw [if_pos hr, List.append_assoc,
          runsFrom_append r _ hz (by simpa using hr), List.singleton_append, runsFrom,
          if_pos rfl, List.nil_append]
        exact congrArg (r :: ·) (ih htail)
      · -- a full run closed itself
        have hne : r ≠ [] := by intro he; subst he; simp at hr; omega
        rw [if_neg hr, List.append_nil,
          runsFrom_append_full r _ hz hne (by simp; omega), List.nil_append]
        exact congrArg (r :: ·) (ih htail)

omit [DecidableEq α] in
/-- An empty run added after a full one joins to the same string. -/
theorem join_append_nil {z : α} {m : Nat} (rs : List (List α)) {last : List α}
    (hlast : last.length = m) : join z m (rs ++ [last] ++ [[]]) = join z m (rs ++ [last]) := by
  induction rs with
  | nil => simp [join, hlast]
  | cons r rs ih =>
      rw [List.cons_append, List.cons_append, join_cons _ _ _ (by simp), ih,
        join_cons _ _ _ (by simp)]

/-! ## Writing runs as symbols -/

/-- A way to write the lengths `0 … m` as symbols other than the delimiter. -/
structure Coding (z : α) (m : Nat) where
  /-- The symbol for a length. -/
  code : Nat → α
  /-- The length a symbol stands for. -/
  value : α → Nat
  /-- Lengths up to the bound are read back. -/
  value_code : ∀ n, n ≤ m → value (code n) = n
  /-- No length is written as the delimiter. -/
  code_ne : ∀ n, n ≤ m → code n ≠ z
  /-- Every other symbol stands for a length within the bound. -/
  value_le : ∀ a, a ≠ z → value a ≤ m
  /-- It is the only symbol for that length. -/
  code_value : ∀ a, a ≠ z → code (value a) = a

variable {z : α} {m : Nat}

/-- Every run, each behind the code of its length. -/
def emit (c : Coding z m) : List (List α) → List α
  | [] => []
  | r :: rs => c.code r.length :: r ++ emit c rs

/-- Read runs back; `none` on a delimiter in a code's place or a run cut short. -/
def parse (c : Coding z m) (y : List α) : Option (List (List α)) :=
  match y with
  | [] => some []
  | a :: y =>
      if a = z then none
      else if y.length < c.value a then none
      else (parse c (y.drop (c.value a))).map (y.take (c.value a) :: ·)
termination_by y.length
decreasing_by
  rw [List.length_drop, List.length_cons]
  omega

/-- The stuffed form of a string. -/
def stuff (c : Coding z m) (x : List α) : List α := emit c (runs z m x)

/-- The string a stuffed form stands for. -/
def unstuff (c : Coding z m) (y : List α) : Option (List α) := (parse c y).map (join z m)

omit [DecidableEq α] in
theorem emit_append (c : Coding z m) (rs qs : List (List α)) :
    emit c (rs ++ qs) = emit c rs ++ emit c qs := by
  induction rs with
  | nil => rfl
  | cons r rs ih => simp [emit, ih]

theorem parse_emit (c : Coding z m) {rs : List (List α)} (h : WellRun z m rs) :
    parse c (emit c rs) = some rs := by
  induction rs with
  | nil => simp [emit, parse]
  | cons r rs ih =>
      have hle : r.length ≤ m := h.short r (by simp)
      rw [emit, List.cons_append, parse, if_neg (c.code_ne _ hle), c.value_code _ hle,
        if_neg (by simp)]
      simp [ih h.tail]

/-- What parses was written by `emit`, from runs no longer than the bound. -/
theorem emit_parse (c : Coding z m) {y : List α} {rs : List (List α)} (hz : z ∉ y)
    (h : parse c y = some rs) : emit c rs = y ∧ WellRun z m rs := by
  induction y using parse.induct c generalizing rs with
  | case1 =>
      simp only [parse, Option.some.injEq] at h
      subst h
      exact ⟨rfl, by simp, by simp⟩
  | case2 y => simp at hz
  | case3 a y ha hlt => simp [parse, ha, hlt] at h
  | case4 a y ha hlt ih =>
      rw [parse, if_neg ha, if_neg hlt] at h
      obtain ⟨qs, hqs, rfl⟩ := Option.map_eq_some_iff.mp h
      have hzy : z ∉ y := fun hy => hz (List.mem_cons_of_mem _ hy)
      obtain ⟨h1, h2⟩ := ih (fun hy => hzy (List.mem_of_mem_drop hy)) hqs
      have hlen : (y.take (c.value a)).length = c.value a := by
        rw [List.length_take]; omega
      refine ⟨?_, h2.cons (fun hy => hzy (List.mem_of_mem_take hy))
        (by rw [hlen]; exact c.value_le a ha)⟩
      rw [emit, h1, hlen, c.code_value a ha, List.cons_append, List.take_append_drop]

/-- What parses in two parts parses in one. -/
theorem parse_append (c : Coding z m) {y y' : List α} {rs qs : List (List α)}
    (h : parse c y = some rs) (h' : parse c y' = some qs) :
    parse c (y ++ y') = some (rs ++ qs) := by
  induction y using parse.induct c generalizing rs with
  | case1 =>
      rw [parse, Option.some.injEq] at h
      rw [← h]
      exact h'
  | case2 y => simp [parse] at h
  | case3 a y ha hlt => simp [parse, ha, hlt] at h
  | case4 a y ha hlt ih =>
      rw [parse, if_neg ha, if_neg hlt] at h
      obtain ⟨ps, hps, rfl⟩ := Option.map_eq_some_iff.mp h
      have hle : c.value a ≤ y.length := Nat.le_of_not_lt hlt
      rw [List.cons_append, parse, if_neg ha, if_neg (by rw [List.length_append]; omega),
        List.drop_append_of_le_length hle, List.take_append_of_le_length hle, ih hps]
      rfl

/-! ## The properties of the stuffed form -/

/-- **Unstuffing a stuffed string gives it back.** -/
theorem unstuff_stuff (c : Coding z m) (hm : 0 < m) (x : List α) :
    unstuff c (stuff c x) = some x := by
  have hw : WellRun z m (runs z m x) := runsFrom_wellRun x hm (by simp)
  rw [unstuff, stuff, parse_emit c hw, Option.map_some, join_runs hm]

/-- Where the first run is not empty, the string begins with the symbol behind the first code. -/
theorem unstuff_head (c : Coding z m) {a b : α} {y x : List α} (hne : c.value a ≠ 0)
    (h : unstuff c (a :: b :: y) = some x) : x.head? = some b := by
  obtain ⟨rs, hrs, rfl⟩ := Option.map_eq_some_iff.mp h
  rw [parse] at hrs
  split at hrs
  · cases hrs
  · split at hrs
    · cases hrs
    · obtain ⟨qs, _, rfl⟩ := Option.map_eq_some_iff.mp hrs
      obtain ⟨n, hn⟩ := Nat.exists_eq_succ_of_ne_zero hne
      rw [hn, List.take_succ_cons]
      cases qs <;> rfl

omit [DecidableEq α] in
theorem emit_clean (c : Coding z m) {rs : List (List α)} (h : WellRun z m rs) :
    z ∉ emit c rs := by
  induction rs with
  | nil => simp [emit]
  | cons r rs ih =>
      simp only [emit, List.cons_append, List.mem_cons, List.mem_append, not_or]
      exact ⟨fun he => c.code_ne _ (h.short r (by simp)) he.symm, h.clean r (by simp), ih h.tail⟩

/-- **The stuffed form never holds the delimiter.** -/
theorem stuff_clean (c : Coding z m) (hm : 0 < m) (x : List α) : z ∉ stuff c x :=
  emit_clean c (runsFrom_wellRun x hm (by simp))

theorem emit_runsFrom_length (c : Coding z m) {acc : List α} (x : List α) (hacc : acc.length < m) :
    (emit c (runsFrom z m acc x)).length
      ≤ acc.length + x.length + (acc.length + x.length) / m + 1 := by
  induction x generalizing acc with
  | nil => simp [runsFrom, emit]
  | cons a x ih =>
      rw [runsFrom]
      split
      · have h := @ih [] (by simp; omega)
        have hmono : x.length / m ≤ (acc.length + (x.length + 1)) / m :=
          Nat.div_le_div_right (by omega)
        simp [emit] at h ⊢
        omega
      · split
        · -- a full run pays its code out of the `m` symbols it holds
          rename_i hfull
          have h := @ih [] (by simp; omega)
          have hdiv : (acc.length + (x.length + 1)) / m = x.length / m + 1 := by
            rw [show acc.length + (x.length + 1) = x.length + m by omega,
              Nat.add_div_right _ (by omega)]
          simp [emit] at h ⊢
          omega
        · have h := @ih (acc ++ [a]) (by simp; omega)
          simp only [List.length_append, List.length_cons, List.length_nil] at h ⊢
          rw [show acc.length + (0 + 1) + x.length = acc.length + (x.length + 1) by omega] at h
          exact h

/-- **Stuffing costs one symbol, and one more for every full run.** -/
theorem stuff_length (c : Coding z m) (hm : 0 < m) (x : List α) :
    (stuff c x).length ≤ x.length + x.length / m + 1 := by
  have h : (emit c (runsFrom z m [] x)).length ≤ _ := emit_runsFrom_length c x hm
  simpa [stuff, runs] using h

/-- Every symbol is written, or pays for a code where it is a delimiter. -/
theorem emit_runsFrom_ge (c : Coding z m) {acc : List α} (x : List α) :
    acc.length + x.length + 1 ≤ (emit c (runsFrom z m acc x)).length := by
  induction x generalizing acc with
  | nil => simp [runsFrom, emit]
  | cons a x ih =>
      rw [runsFrom]
      split
      · have h := @ih []
        simp [emit] at h ⊢
        omega
      · split
        · have h := @ih []
          simp [emit] at h ⊢
          omega
        · have h := @ih (acc ++ [a])
          simp at h ⊢
          omega

/-- **Stuffing never shortens.** -/
theorem stuff_length_gt (c : Coding z m) (x : List α) : x.length < (stuff c x).length := by
  have h : _ ≤ (emit c (runsFrom z m [] x)).length := emit_runsFrom_ge c x
  rw [List.length_nil, Nat.zero_add] at h
  exact h

/-- A stuffed form is never empty: the last run is always written. -/
theorem stuff_pos (c : Coding z m) (x : List α) : 0 < (stuff c x).length :=
  Nat.zero_lt_of_lt (stuff_length_gt c x)

/--
**Only canonical forms unstuff, up to one trailing code.**

A form that ends in a full run, or is empty, stands for the same string as the
form with one more empty run, and the splitter writes the longer one.
-/
theorem stuff_of_unstuff (c : Coding z m) (hm : 0 < m) {x y : List α} (hz : z ∉ y)
    (h : unstuff c y = some x) :
    stuff c x = y ∨ stuff c x = y ++ [c.code 0]
      ∧ (y = [] ∨ ∃ rs r, y = emit c (rs ++ [r]) ∧ WellRun z m (rs ++ [r]) ∧ r.length = m) := by
  obtain ⟨rs, hrs, rfl⟩ := Option.map_eq_some_iff.mp h
  obtain ⟨hy, hw⟩ := emit_parse c hz hrs
  subst hy
  rcases List.eq_nil_or_concat rs with rfl | ⟨qs, r, hqs⟩
  · exact Or.inr ⟨by simp [stuff, runs, runsFrom, join, emit], Or.inl rfl⟩
  · rw [List.concat_eq_append] at hqs
    subst hqs
    have hle : r.length ≤ m := hw.short r (by simp)
    by_cases hr : r.length < m
    · exact Or.inl (by rw [stuff, runs_join hm hw hr])
    · -- the empty run behind the full one is the one the splitter ends on
      have hfull : r.length = m := by omega
      refine Or.inr ⟨?_, Or.inr ⟨qs, r, rfl, hw, hfull⟩⟩
      rw [stuff, ← join_append_nil qs hfull, runs_join hm hw.snoc_nil (by simpa using hm),
        emit_append]
      simp [emit]

/-- **A form that leaves the last, empty run out is read alike**, behind a full run or none. -/
theorem unstuff_omitted (c : Coding z m) (hm : 0 < m) {x y : List α} {rs : List (List α)}
    (hrs : parse c y = some rs) (hlast : ∀ qs r, rs = qs ++ [r] → r.length = m)
    (h : stuff c x = y ++ [c.code 0]) : unstuff c y = some x := by
  have hzero : parse c [c.code 0] = some [[]] :=
    @parse_emit α _ z m c [[]] ⟨by simp, by simp⟩
  have hparse : parse c (stuff c x) = some (runs z m x) := parse_emit c (runsFrom_wellRun x hm (by simp))
  rw [h, parse_append c hrs hzero, Option.some.injEq] at hparse
  rw [unstuff, hrs, Option.map_some, ← join_runs hm x, ← hparse]
  rcases List.eq_nil_or_concat rs with rfl | ⟨qs, r, hqs⟩
  · rfl
  · rw [List.concat_eq_append] at hqs
    subst hqs
    rw [join_append_nil qs (hlast qs r rfl)]

end Stuffing
