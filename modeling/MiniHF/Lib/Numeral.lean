/-!
# Numerals

`value r f xs` is the number a list stands for in base `r`, most significant item
first, when `f` gives the digit of an item. It is what a loop
`n = n * r + f(x)` over the items computes.

A numeral of `n` digits is below `r ^ n`, and numerals of one length with the same
value have the same digits. `value_snoc` takes off the last digit: what dividing
by a factor of the base does to a numeral is seen there.

`mixed` is for records packed into one number, where every place has a base of its
own. The same two facts hold there.

Nothing keeps a loop from adding digits that are not within their bases. The number
then stands for more than one list of digits, and `Carries` says which lists those
are: place by place, what one has more than the other is carried on.
-/

namespace Numeral

variable {α : Type} {r : Nat} {f : α → Nat}

/-- The number the items stand for in base `r`. -/
def value (r : Nat) (f : α → Nat) (xs : List α) : Nat := xs.foldl (fun n x => n * r + f x) 0

theorem value_snoc (r : Nat) (f : α → Nat) (xs : List α) (x : α) :
    value r f (xs ++ [x]) = value r f xs * r + f x := by
  unfold value
  rw [List.foldl_append]
  rfl

/-- Only the digits of the items count. -/
theorem value_congr {g : α → Nat} {xs : List α} (h : ∀ x ∈ xs, f x = g x) :
    value r f xs = value r g xs := by
  unfold value
  generalize 0 = n
  induction xs generalizing n with
  | nil => rfl
  | cons x xs ih =>
      rw [List.foldl_cons, List.foldl_cons, h x (by simp)]
      exact ih (fun y hy => h y (by simp [hy])) _

/-- Leading items of digit 0 do not count. -/
theorem value_leftpad {a : α} (h : f a = 0) (n : Nat) (xs : List α) :
    value r f (List.leftpad n a xs) = value r f xs := by
  unfold List.leftpad
  induction n - xs.length with
  | zero => rfl
  | succ k ih =>
      rw [← ih, List.replicate_succ, List.cons_append, value, value, List.foldl_cons, h,
        Nat.zero_mul]

/-- Half a numeral in an even base: the last digit is halved, the others keep their weight. -/
theorem value_snoc_half (k : Nat) (f : α → Nat) (xs : List α) (x : α) :
    value (2 * k) f (xs ++ [x]) / 2 = value (2 * k) f xs * k + f x / 2 := by
  rw [value_snoc, Nat.mul_left_comm, Nat.mul_add_div (by omega)]

/-- The loop started with a number below `b`. -/
theorem foldl_lt {xs : List α} (h : ∀ x ∈ xs, f x < r) {a b : Nat} (hab : a < b) :
    xs.foldl (fun n x => n * r + f x) a < b * Nat.pow r xs.length := by
  induction xs generalizing a b with
  | nil => exact Nat.lt_of_lt_of_eq hab (Nat.mul_one b).symm
  | cons x xs ih =>
      have hx := h x (by simp)
      have hle : (a + 1) * r ≤ b * r := Nat.mul_le_mul_right r hab
      rw [Nat.add_mul, Nat.one_mul] at hle
      have hstep := ih (fun y hy => h y (by simp [hy])) (show a * r + f x < b * r by omega)
      have hpow : b * Nat.pow r (x :: xs).length = b * r * Nat.pow r xs.length := by
        rw [Nat.mul_assoc, Nat.mul_comm r]
        rfl
      rw [hpow]
      exact hstep

/-- A numeral is below the power of its base. -/
theorem value_lt {xs : List α} (h : ∀ x ∈ xs, f x < r) : value r f xs < Nat.pow r xs.length := by
  have := foldl_lt h (show 0 < 1 by omega)
  rwa [Nat.one_mul] at this

/-- A quotient and a remainder are one way to write a number. -/
theorem digit_unique {a b i j : Nat} (hi : i < r) (hj : j < r) (h : a * r + i = b * r + j) :
    a = b ∧ i = j := by
  have hr : 0 < r := by omega
  have ha : (a * r + i) / r = a := by
    rw [Nat.mul_comm, Nat.mul_add_div hr, Nat.div_eq_of_lt hi, Nat.add_zero]
  have hb : (b * r + j) / r = b := by
    rw [Nat.mul_comm, Nat.mul_add_div hr, Nat.div_eq_of_lt hj, Nat.add_zero]
  have hab : a = b := by rw [← ha, ← hb, h]
  subst hab
  exact ⟨rfl, by omega⟩

theorem foldl_inj {xs ys : List α} (hlen : xs.length = ys.length) (hx : ∀ x ∈ xs, f x < r)
    (hy : ∀ y ∈ ys, f y < r) (hf : ∀ x ∈ xs, ∀ y ∈ ys, f x = f y → x = y) {a b : Nat}
    (h : xs.foldl (fun n x => n * r + f x) a = ys.foldl (fun n x => n * r + f x) b) :
    a = b ∧ xs = ys := by
  induction xs generalizing ys a b with
  | nil =>
      cases ys with
      | nil => exact ⟨h, rfl⟩
      | cons y ys => exact absurd hlen (by simp)
  | cons x xs ih =>
      cases ys with
      | nil => exact absurd hlen (by simp)
      | cons y ys =>
          have hlen' : xs.length = ys.length := Nat.succ.inj hlen
          have hloop : xs.foldl (fun n x => n * r + f x) (a * r + f x)
              = ys.foldl (fun n x => n * r + f x) (b * r + f y) := h
          obtain ⟨hab, htail⟩ := ih hlen' (fun z hz => hx z (by simp [hz]))
            (fun z hz => hy z (by simp [hz]))
            (fun z hz w hw => hf z (by simp [hz]) w (by simp [hw])) hloop
          obtain ⟨ha, hxy⟩ := digit_unique (hx x (by simp)) (hy y (by simp)) hab
          exact ⟨ha, by rw [hf x (by simp) y (by simp) hxy, htail]⟩

/-- Numerals of one length with one value are the same, if a digit belongs to one item only. -/
theorem value_inj {xs ys : List α} (hlen : xs.length = ys.length) (hx : ∀ x ∈ xs, f x < r)
    (hy : ∀ y ∈ ys, f y < r) (hf : ∀ x ∈ xs, ∀ y ∈ ys, f x = f y → x = y)
    (h : value r f xs = value r f ys) : xs = ys :=
  (foldl_inj hlen hx hy hf h).2

/-! ## A base for each place -/

/-- The number of digits written `(base, digit)`, each in a base of its own. -/
def mixed (ds : List (Nat × Nat)) : Nat := ds.foldl (fun n d => n * d.1 + d.2) 0

/-- How many numbers places of these bases hold. -/
def volume (bases : List Nat) : Nat := bases.foldl (fun n r => n * r) 1

theorem mixed_foldl_lt {ds : List (Nat × Nat)} (h : ∀ d ∈ ds, d.2 < d.1) {a b : Nat}
    (hab : a < b) :
    ds.foldl (fun n d => n * d.1 + d.2) a < ds.foldl (fun n d => n * d.1) b := by
  induction ds generalizing a b with
  | nil => exact hab
  | cons d ds ih =>
      have hd := h d (by simp)
      have hle : (a + 1) * d.1 ≤ b * d.1 := Nat.mul_le_mul_right d.1 hab
      rw [Nat.add_mul, Nat.one_mul] at hle
      exact ih (fun e he => h e (by simp [he])) (show a * d.1 + d.2 < b * d.1 by omega)

theorem mixed_lt {ds : List (Nat × Nat)} (h : ∀ d ∈ ds, d.2 < d.1) :
    mixed ds < volume (ds.map Prod.fst) := by
  unfold volume
  rw [List.foldl_map]
  exact mixed_foldl_lt h (by omega)

theorem mixed_foldl_inj {ds es : List (Nat × Nat)} (hbase : ds.map Prod.fst = es.map Prod.fst)
    (hd : ∀ d ∈ ds, d.2 < d.1) (he : ∀ e ∈ es, e.2 < e.1) {a b : Nat}
    (h : ds.foldl (fun n d => n * d.1 + d.2) a = es.foldl (fun n d => n * d.1 + d.2) b) :
    a = b ∧ ds = es := by
  induction ds generalizing es a b with
  | nil =>
      cases es with
      | nil => exact ⟨h, rfl⟩
      | cons e es => exact absurd hbase (by simp)
  | cons d ds ih =>
      cases es with
      | nil => exact absurd hbase (by simp)
      | cons e es =>
          obtain ⟨r, x⟩ := d
          obtain ⟨r', y⟩ := e
          rw [List.map_cons, List.map_cons, List.cons.injEq] at hbase
          obtain ⟨hr, hbase⟩ := hbase
          dsimp only at hr
          subst hr
          obtain ⟨hab, htail⟩ := ih hbase (fun d hmem => hd d (by simp [hmem]))
            (fun e hmem => he e (by simp [hmem])) h
          have hx : x < r := hd (r, x) (by simp)
          have hy : y < r := he (r, y) (by simp)
          obtain ⟨hab, hxy⟩ := digit_unique hx hy hab
          exact ⟨hab, by rw [htail, hxy]⟩

/-- Numbers with the same places and one value have the same digits. -/
theorem mixed_inj {ds es : List (Nat × Nat)} (hbase : ds.map Prod.fst = es.map Prod.fst)
    (hd : ∀ d ∈ ds, d.2 < d.1) (he : ∀ e ∈ es, e.2 < e.1) (h : mixed ds = mixed es) : ds = es :=
  (mixed_foldl_inj hbase hd he h).2

/-! ## Digits beyond their base -/

/-- The number of digits listed from the last place to the first, which has no base. -/
def lowFirst : List Int → List Int → Int
  | r :: rs, x :: xs => x + r * lowFirst rs xs
  | [], x :: _ => x
  | _, [] => 0

/-- The digits `xs` with a carry `c` are the digits `ys`, from the last place to the first: what is
too much at a place is a multiple of its base, and goes to the next as its carry. -/
inductive Carries : List Int → Int → List Int → List Int → Prop where
  | first {c x y : Int} : x + c = y → Carries [] c [x] [y]
  | place {r c x y d : Int} {rs xs ys : List Int} :
      x + c = y + r * d → Carries rs d xs ys → Carries (r :: rs) c (x :: xs) (y :: ys)

/-- **Lists of digits have one number exactly when one is the other with carries.** -/
theorem carries_iff {rs xs ys : List Int} {c : Int} (hx : xs.length = rs.length + 1)
    (hy : ys.length = rs.length + 1) :
    Carries rs c xs ys ↔ lowFirst rs xs + c = lowFirst rs ys := by
  induction rs generalizing xs ys c with
  | nil =>
      obtain ⟨x, rfl⟩ := List.length_eq_one_iff.mp hx
      obtain ⟨y, rfl⟩ := List.length_eq_one_iff.mp hy
      constructor
      · rintro ⟨h⟩
        exact h
      · intro h
        exact .first h
  | cons r rs ih =>
      obtain ⟨x, xs, rfl⟩ := List.exists_cons_of_length_eq_add_one hx
      obtain ⟨y, ys, rfl⟩ := List.exists_cons_of_length_eq_add_one hy
      have hx' : xs.length = rs.length + 1 := Nat.succ.inj hx
      have hy' : ys.length = rs.length + 1 := Nat.succ.inj hy
      rw [lowFirst, lowFirst]
      constructor
      · intro h
        cases h with
        | @place _ _ _ _ d _ _ _ hplace hrest =>
            rw [← (ih hx' hy').mp hrest, Int.mul_add]
            omega
      · intro h
        -- what is carried is what the places before lack
        have hplace : x + c = y + r * (lowFirst rs ys - lowFirst rs xs) := by
          rw [Int.mul_sub]
          omega
        exact .place hplace ((ih hx' hy').mpr (by omega))

/-- Digits within their bases. -/
def Within : List Int → List Int → Prop
  | r :: rs, x :: xs => (0 ≤ x ∧ x < r) ∧ Within rs xs
  | _, _ => True

/-- Nothing is carried between digits within their bases. -/
theorem carries_within {rs xs ys : List Int} (h : Carries rs 0 xs ys) (hx : Within rs xs)
    (hy : Within rs ys) : xs = ys := by
  induction rs generalizing xs ys with
  | nil =>
      cases h with
      | first heq => rw [← heq, Int.add_zero]
  | cons r rs ih =>
      cases h with
      | @place _ _ x y d _ xs ys hplace hrest =>
          obtain ⟨hx₀, hx⟩ := hx
          obtain ⟨hy₀, hy⟩ := hy
          have hd : d = 0 := by
            rcases Int.lt_trichotomy d 0 with hneg | hzero | hpos
            · have := Int.mul_le_mul_of_nonneg_left (show d ≤ -1 by omega) (show 0 ≤ r by omega)
              omega
            · exact hzero
            · have := Int.mul_le_mul_of_nonneg_left (show 1 ≤ d by omega) (show 0 ≤ r by omega)
              omega
          subst hd
          rw [ih hrest hx hy, show x = y by omega]

end Numeral
