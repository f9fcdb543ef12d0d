import MiniHF.Lib.Buffer

/-!
# Stores to listed places

`scatter buf stores` stores items one after the other, each at a place of its own.
When no place is used twice, every item is there in the end and every other place
is as it was (`scatter_spec`). When the places are all places of the buffer, nothing
of the old buffer is left, and the buffer and the items determine each other. A loop
that stores one item at each place in turn is of this kind (`loop_range`).
-/

namespace Scatter

open Buffer

variable {α : Type} {n : Nat}

/-- Store each item at its place. -/
def scatter (buf : Vector α n) : List (Nat × α) → Except Fault (Vector α n)
  | [] => .ok buf
  | (i, a) :: stores => do
      let buf ← store buf i a
      scatter buf stores

/-- The item is at its place. -/
def Holds (buf : Vector α n) (s : Nat × α) : Prop := buf.toList[s.1]? = some s.2

/-- A store changes one place. -/
theorem store_places (buf : Vector α n) {i : Nat} (a : α) (hi : i < n) :
    ∃ buf', store buf i a = .ok buf' ∧ Holds buf' (i, a) ∧
      ∀ j, j ≠ i → buf'.toList[j]? = buf.toList[j]? := by
  refine ⟨_, by unfold store; rw [dif_pos hi], ?_, ?_⟩
  · unfold Holds
    rw [Vector.toList_set, List.getElem?_set, if_pos rfl, Vector.length_toList, if_pos hi]
  · intro j hj
    rw [Vector.toList_set, List.getElem?_set, if_neg (fun h => hj h.symm)]

/-- **Stores to different places do not disturb each other.** -/
theorem scatter_spec (buf : Vector α n) {stores : List (Nat × α)}
    (hin : ∀ s ∈ stores, s.1 < n) (hplaces : (stores.map Prod.fst).Nodup) :
    ∃ buf', scatter buf stores = .ok buf' ∧ (∀ s ∈ stores, Holds buf' s) ∧
      ∀ j, j ∉ stores.map Prod.fst → buf'.toList[j]? = buf.toList[j]? := by
  induction stores generalizing buf with
  | nil => exact ⟨buf, rfl, fun s hs => absurd hs (by simp), fun j _ => rfl⟩
  | cons s stores ih =>
      obtain ⟨i, a⟩ := s
      rw [List.map_cons, List.nodup_cons] at hplaces
      obtain ⟨hfree, hplaces⟩ := hplaces
      obtain ⟨buf₁, h₁, hat₁, helse₁⟩ := store_places buf a (hin (i, a) (by simp))
      obtain ⟨buf₂, h₂, hat₂, helse₂⟩ := ih buf₁ (fun s hs => hin s (by simp [hs])) hplaces
      refine ⟨buf₂, by rw [scatter, h₁, ok_bind, h₂], ?_, ?_⟩
      · intro s hs
        rcases List.mem_cons.mp hs with rfl | hs
        · -- no later store goes there
          unfold Holds at hat₁ ⊢
          rw [helse₂ _ hfree, hat₁]
        · exact hat₂ s hs
      · intro j hj
        rw [List.map_cons, List.mem_cons, not_or] at hj
        rw [helse₂ j hj.2, helse₁ j hj.1]

/-- What a buffer holds at the listed places. -/
def gather (buf : Vector α n) (places : List Nat) : List (Option α) :=
  places.map (fun i => buf.toList[i]?)

theorem gather_eq {buf : Vector α n} {places : List Nat} {xs : List α}
    (hlen : places.length = xs.length) (h : ∀ s ∈ places.zip xs, Holds buf s) :
    gather buf places = xs.map some := by
  induction places generalizing xs with
  | nil =>
      cases xs with
      | nil => rfl
      | cons x xs => exact absurd hlen (by simp)
  | cons i places ih =>
      cases xs with
      | nil => exact absurd hlen (by simp)
      | cons x xs =>
          have hx : buf.toList[i]? = some x := h (i, x) (by simp)
          have hrest : gather buf places = xs.map some :=
            ih (Nat.succ.inj hlen) (fun s hs => h s (by simp [hs]))
          unfold gather at hrest ⊢
          rw [List.map_cons, List.map_cons, hx, hrest]

/-- A buffer is known when all its places are. -/
theorem gather_inj {buf buf' : Vector α n} {places : List Nat} (hall : ∀ i < n, i ∈ places)
    (h : gather buf places = gather buf' places) : buf = buf' := by
  have hplace : ∀ i ∈ places, buf.toList[i]? = buf'.toList[i]? :=
    List.map_inj_left.mp h
  have hlist : buf.toList = buf'.toList := by
    apply List.ext_getElem?
    intro i
    by_cases hi : i < n
    · exact hplace i (hall i hi)
    · rw [List.getElem?_eq_none (by rw [Vector.length_toList]; omega),
        List.getElem?_eq_none (by rw [Vector.length_toList]; omega)]
  exact Vector.toList_inj.mp hlist

/-- What is in such a buffer is among the items. -/
theorem mem_of_gather {buf : Vector α n} {places : List Nat} {xs : List α}
    (hall : ∀ i < n, i ∈ places) (h : gather buf places = xs.map some) : ∀ x ∈ buf.toList, x ∈ xs := by
  intro x hx
  obtain ⟨i, hi, hget⟩ := List.mem_iff_getElem.mp hx
  rw [Vector.length_toList] at hi
  have hmem : some x ∈ gather buf places := by
    unfold gather
    rw [List.mem_map]
    exact ⟨i, hall i hi, by rw [← hget, List.getElem?_eq_getElem]⟩
  rw [h, List.mem_map] at hmem
  obtain ⟨y, hy, heq⟩ := hmem
  cases heq
  exact hy

/-- Stores to all places in turn. -/
theorem scatter_range (buf : Vector α n) (f : Nat → α) :
    ∃ buf', scatter buf ((List.range n).map (fun i => (i, f i))) = .ok buf' ∧
      buf'.toList = (List.range n).map f := by
  have hfst : ((List.range n).map (fun i => (i, f i))).map Prod.fst = List.range n := by
    rw [List.map_map]
    exact List.map_id _
  have hin : ∀ s ∈ (List.range n).map (fun i => (i, f i)), s.1 < n := by
    intro s hs
    obtain ⟨i, hi, rfl⟩ := List.mem_map.mp hs
    exact List.mem_range.mp hi
  obtain ⟨buf', hok, hat, -⟩ := scatter_spec buf hin (by rw [hfst]; exact List.nodup_range)
  refine ⟨buf', hok, ?_⟩
  apply List.ext_getElem?
  intro i
  by_cases hi : i < n
  · have hstored : Holds buf' (i, f i) := hat (i, f i) (List.mem_map.mpr ⟨i, by simpa using hi, rfl⟩)
    unfold Holds at hstored
    rw [hstored, List.getElem?_map, List.getElem?_range hi]
    rfl
  · rw [List.getElem?_eq_none (by rw [Vector.length_toList]; omega),
      List.getElem?_eq_none (by rw [List.length_map, List.length_range]; omega)]

/-- **A loop over all places that stores one item at each.** -/
theorem loop_range {loop : Vector α n → List Nat → Except Fault (Vector α n)} {f : Nat → α}
    (hnil : ∀ buf, loop buf [] = .ok buf)
    (hcons : ∀ buf i is, i < n → loop buf (i :: is) = store buf i (f i) >>= fun buf => loop buf is)
    (buf : Vector α n) :
    ∃ buf', loop buf (List.range n) = .ok buf' ∧ buf'.toList = (List.range n).map f := by
  have hloop : ∀ is : List Nat, (∀ i ∈ is, i < n) → ∀ buf,
      loop buf is = scatter buf (is.map (fun i => (i, f i))) := by
    intro is
    induction is with
    | nil => exact fun _ buf => hnil buf
    | cons i is ih =>
        intro his buf
        rw [hcons buf i is (his i (by simp)), List.map_cons, scatter]
        cases store buf i (f i) with
        | error e => rfl
        | ok buf => exact ih (fun j hj => his j (by simp [hj])) buf
  rw [hloop _ (fun i hi => List.mem_range.mp hi)]
  exact scatter_range buf f

end Scatter
