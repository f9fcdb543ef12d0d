/-!
# Fixed-size buffers with checked stores

A C buffer is a vector, and a store is checked: outside the buffer it is a
`Fault`, which ends the computation. So is a read. A function that returns `.ok`
has therefore stored to no place and read none out of bounds.

Proofs follow what has been written so far as a list: `Written buf l` says that
`buf` starts with `l`. A store at the end of `l` extends it, a store inside `l`
changes one item, and skipping a place leaves an unknown item behind.
-/

/-- What goes wrong when a store or a read misses its buffer. -/
inductive Fault where
  /-- An access at `index` in a buffer of `size` items. -/
  | overrun (index size : Nat)
deriving DecidableEq, Repr

namespace Buffer

variable {α : Type} {n : Nat}

/-- `buf[i] = a`. -/
def store (buf : Vector α n) (i : Nat) (a : α) : Except Fault (Vector α n) :=
  if h : i < n then .ok (buf.set i a h) else .error (.overrun i n)

/-- `buf[i]` as a value. -/
def load (buf : Vector α n) (i : Nat) : Except Fault α :=
  if h : i < n then .ok (buf.get ⟨i, h⟩) else .error (.overrun i n)

/-- Copy a list into the buffer, from index `i` on. -/
def memcpy (buf : Vector α n) (i : Nat) : List α → Except Fault (Vector α n)
  | [] => .ok buf
  | a :: xs => do
      let buf ← store buf i a
      memcpy buf (i + 1) xs

/-- The `k` items from index `i` on. -/
def loadRange (buf : Vector α n) (i : Nat) : Nat → Except Fault (List α)
  | 0 => .ok []
  | k + 1 => do
      let a ← load buf i
      let xs ← loadRange buf (i + 1) k
      return a :: xs

/-- The next step of a computation that has not faulted. -/
@[simp] theorem ok_bind {β γ : Type} (b : β) (f : β → Except Fault γ) :
    (Except.ok b >>= f) = f b := rfl

/-- A fault ends the computation. -/
@[simp] theorem error_bind {β γ : Type} (e : Fault) (f : β → Except Fault γ) :
    ((Except.error e : Except Fault β) >>= f) = .error e := rfl

/-- What is behind a step that came through. -/
theorem of_bind_eq_ok {β γ : Type} {x : Except Fault β} {f : β → Except Fault γ} {c : γ}
    (h : (x >>= f) = .ok c) : ∃ b, x = .ok b ∧ f b = .ok c := by
  cases x with
  | error e => cases h
  | ok b => exact ⟨b, rfl, h⟩

/-- A last step that only returns. -/
theorem bind_ok {β : Type} (x : Except Fault β) : (x >>= fun b => .ok b) = x := by
  cases x <;> rfl

/-- The buffer starts with `l`. -/
def Written (buf : Vector α n) (l : List α) : Prop := l <+: buf.toList

theorem written_nil (buf : Vector α n) : Written buf [] := List.nil_prefix

theorem Written.length_le {buf : Vector α n} {l : List α} (h : Written buf l) : l.length ≤ n := by
  have := List.IsPrefix.length_le h
  rwa [Vector.length_toList] at this

theorem Written.take {buf : Vector α n} {l : List α} (h : Written buf l) :
    buf.toList.take l.length = l := (List.prefix_iff_eq_take.mp h).symm

/-- A buffer written to its end is what has been written. -/
theorem Written.full {buf : Vector α n} {l : List α} (h : Written buf l) (hlen : l.length = n) :
    buf.toList = l := by
  obtain ⟨t, ht⟩ := h
  have hnil : t = [] := by
    have := congrArg List.length ht
    rw [List.length_append, Vector.length_toList] at this
    exact List.length_eq_zero_iff.mp (by omega)
  rw [← ht, hnil, List.append_nil]

/-- A store past the end faults. -/
theorem store_fault {buf : Vector α n} {i : Nat} (a : α) (h : n ≤ i) :
    store buf i a = .error (.overrun i n) := by
  unfold store
  rw [dif_neg (by omega)]

/-- An item that has been written is inside the buffer. -/
theorem Written.lt {buf : Vector α n} {l r : List α} {x : α} (h : Written buf (l ++ x :: r)) :
    l.length < n := by
  have hle := h.length_le
  rw [List.length_append, List.length_cons] at hle
  omega

/-- A store inside what has been written changes that item. -/
theorem store_mid {buf : Vector α n} {l r : List α} {x : α} (a : α)
    (h : Written buf (l ++ x :: r)) :
    ∃ buf', store buf l.length a = .ok buf' ∧ Written buf' (l ++ a :: r) := by
  have hlt := h.lt
  obtain ⟨t, ht⟩ := h
  refine ⟨buf.set l.length a hlt, by unfold store; rw [dif_pos hlt], t, ?_⟩
  rw [Vector.toList_set, ← ht]
  simp

theorem load_eq (buf : Vector α n) {i : Nat} (hi : i < n) :
    load buf i = .ok (buf.get ⟨i, hi⟩) := by
  unfold load
  rw [dif_pos hi]

/-- An item of the buffer as an item of its list. -/
theorem get_getD (buf : Vector α n) {i : Nat} (hi : i < n) (a : α) :
    buf.get ⟨i, hi⟩ = buf.toList.getD i a := by
  have hlist : i < buf.toList.length := by rwa [Vector.length_toList]
  rw [List.getD_eq_getElem?_getD, List.getElem?_eq_getElem hlist, Option.getD_some]
  rfl

/-- What is left of a buffer from a place on starts with its item. -/
theorem drop_get (buf : Vector α n) {i : Nat} (hi : i < n) :
    buf.toList.drop i = buf.get ⟨i, hi⟩ :: buf.toList.drop (i + 1) := by
  have hlist : i < buf.toList.length := by rwa [Vector.length_toList]
  exact List.drop_eq_getElem_cons hlist

/-- Items inside the buffer are read as they stand in its list. -/
theorem loadRange_eq (buf : Vector α n) {i k : Nat} (h : i + k ≤ n) :
    loadRange buf i k = .ok ((buf.toList.drop i).take k) := by
  induction k generalizing i with
  | zero => rfl
  | succ k ih =>
      have hi : i < n := by omega
      rw [loadRange, load_eq buf hi, ok_bind, ih (by omega), ok_bind, drop_get buf hi,
        List.take_succ_cons]
      rfl

/-- A read inside what has been written gives that item. -/
theorem load_mid {buf : Vector α n} {l r : List α} {x : α} (h : Written buf (l ++ x :: r)) :
    load buf l.length = .ok x := by
  have hlt := h.lt
  obtain ⟨t, ht⟩ := h
  have hlist : l.length < buf.toList.length := by rwa [Vector.length_toList]
  have hget : buf.get ⟨l.length, hlt⟩ = buf.toList[l.length] := by
    simp [Vector.get, Vector.toList]
  unfold load
  rw [dif_pos hlt, hget]
  simp [← ht]

/-- A place not stored to keeps whatever it held. -/
theorem Written.skip {buf : Vector α n} {l : List α} (h : Written buf l) (hlt : l.length < n) :
    ∃ x, Written buf (l ++ [x]) := by
  obtain ⟨t, ht⟩ := h
  cases t with
  | nil =>
      have := congrArg List.length ht
      simp at this
      omega
  | cons x t => exact ⟨x, t, by rw [← ht]; simp⟩

/-- A store right behind what has been written extends it. -/
theorem store_snoc {buf : Vector α n} {l : List α} (a : α) (h : Written buf l)
    (hlt : l.length < n) :
    ∃ buf', store buf l.length a = .ok buf' ∧ Written buf' (l ++ [a]) := by
  obtain ⟨x, hx⟩ := h.skip hlt
  exact store_mid a hx

/-- Two stores, one behind the other. -/
theorem store_snoc_two {buf : Vector α n} {l : List α} (a b : α) (h : Written buf l)
    (hlt : l.length + 1 < n) :
    ∃ buf₁ buf₂, store buf l.length a = .ok buf₁ ∧ store buf₁ (l.length + 1) b = .ok buf₂ ∧
      Written buf₂ (l ++ [a, b]) := by
  obtain ⟨buf₁, h₁, hw₁⟩ := store_snoc a h (by omega)
  have hlen : (l ++ [a]).length = l.length + 1 := List.length_append
  obtain ⟨buf₂, h₂, hw₂⟩ := store_snoc b hw₁ (by omega)
  rw [hlen] at h₂
  rw [List.append_assoc] at hw₂
  exact ⟨buf₁, buf₂, h₁, h₂, hw₂⟩

theorem memcpy_snoc {buf : Vector α n} {l : List α} (xs : List α) (h : Written buf l)
    (hle : l.length + xs.length ≤ n) :
    ∃ buf', memcpy buf l.length xs = .ok buf' ∧ Written buf' (l ++ xs) := by
  induction xs generalizing buf l with
  | nil => exact ⟨buf, rfl, by rwa [List.append_nil]⟩
  | cons a xs ih =>
      simp only [List.length_cons] at hle
      obtain ⟨buf₁, h₁, hw₁⟩ := store_snoc a h (by omega)
      obtain ⟨buf₂, h₂, hw₂⟩ := ih hw₁ (by simp; omega)
      refine ⟨buf₂, ?_, by simpa using hw₂⟩
      rw [memcpy, h₁]
      simpa using h₂

/-- A copy to the start of the buffer. -/
theorem memcpy_start (buf : Vector α n) {xs : List α} (hle : xs.length ≤ n) :
    ∃ buf', memcpy buf 0 xs = .ok buf' ∧ Written buf' xs := by
  have hfit : ([] : List α).length + xs.length ≤ n := by
    rw [List.length_nil, Nat.zero_add]
    exact hle
  obtain ⟨buf', hcopy, hw⟩ := memcpy_snoc xs (written_nil buf) hfit
  rw [List.length_nil] at hcopy
  exact ⟨buf', hcopy, hw⟩

/-- A copy to the start and one item more. -/
theorem memcpy_start_store (buf : Vector α n) {xs : List α} (a : α) (hlt : xs.length < n) :
    ∃ buf₁ buf₂, memcpy buf 0 xs = .ok buf₁ ∧ store buf₁ xs.length a = .ok buf₂ ∧
      Written buf₂ (xs ++ [a]) := by
  obtain ⟨buf₁, hcopy, hw₁⟩ := memcpy_start buf (Nat.le_of_lt hlt)
  obtain ⟨buf₂, hstore, hw₂⟩ := store_snoc a hw₁ hlt
  exact ⟨buf₁, buf₂, hcopy, hstore, hw₂⟩

/-- A store leaves what stands behind it. -/
theorem store_behind {buf buf' : Vector α n} {i k : Nat} {a : α} (h : store buf i a = .ok buf')
    (hk : i < k) : buf'.toList.drop k = buf.toList.drop k := by
  unfold store at h
  split at h
  · cases h
    rw [Vector.toList_set, List.drop_set_of_lt hk]
  · cases h

/-- So does a copy. -/
theorem memcpy_behind {buf buf' : Vector α n} {i k : Nat} {xs : List α}
    (h : memcpy buf i xs = .ok buf') (hk : i + xs.length ≤ k) :
    buf'.toList.drop k = buf.toList.drop k := by
  induction xs generalizing buf i with
  | nil =>
      cases h
      rfl
  | cons a xs ih =>
      rw [List.length_cons] at hk
      rw [memcpy] at h
      obtain ⟨buf₁, hstore, hcopy⟩ := of_bind_eq_ok h
      rw [ih hcopy (by omega), store_behind hstore (by omega)]

/-- **A copy changes its own places and no others.** -/
theorem memcpy_eq {buf : Vector α n} {i : Nat} {xs : List α} (h : i + xs.length ≤ n) :
    ∃ buf', memcpy buf i xs = .ok buf' ∧
      buf'.toList = buf.toList.take i ++ xs ++ buf.toList.drop (i + xs.length) := by
  have hlen : (buf.toList.take i).length = i := by
    rw [List.length_take, Vector.length_toList]
    omega
  have hfront : Written buf (buf.toList.take i) := List.take_prefix i _
  obtain ⟨buf', hcopy, hw⟩ := memcpy_snoc xs hfront (by rw [hlen]; exact h)
  rw [hlen] at hcopy
  have hall := hw.take
  rw [List.length_append, hlen] at hall
  have hbehind := memcpy_behind hcopy (Nat.le_refl _)
  refine ⟨buf', hcopy, ?_⟩
  rw [← hbehind, ← hall, List.take_append_drop]

end Buffer
