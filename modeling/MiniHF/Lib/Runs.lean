/-!
# Runs of a step function

A system is a state type, an event type and a total step function; what the
environment chooses is in the event, and an event that is not enabled leaves the
state alone. A run is a list of events.

`Along` says that a condition on a state and the event about to happen holds at
every step of a run, `Throughout` that a property holds in every state the run
visits. The rules below turn step lemmas into run lemmas. `throughout_iff_along`
is the one for systems that are correct exactly as long as a condition is met.
-/

namespace Runs

variable {σ ε : Type}

/-- The state a run ends in. -/
def run (step : σ → ε → σ) (s : σ) (es : List ε) : σ := es.foldl step s

@[simp] theorem run_nil (step : σ → ε → σ) (s : σ) : run step s [] = s := rfl

@[simp] theorem run_cons (step : σ → ε → σ) (s : σ) (e : ε) (es : List ε) :
    run step s (e :: es) = run step (step s e) es := rfl

theorem run_append (step : σ → ε → σ) (s : σ) (es fs : List ε) :
    run step s (es ++ fs) = run step (run step s es) fs := List.foldl_append ..

/-- `good` holds at every step of the run. -/
def Along (step : σ → ε → σ) (good : σ → ε → Prop) : σ → List ε → Prop
  | _, [] => True
  | s, e :: es => good s e ∧ Along step good (step s e) es

/-- `P` holds in every state the run visits. -/
def Throughout (step : σ → ε → σ) (P : σ → Prop) : σ → List ε → Prop
  | s, [] => P s
  | s, e :: es => P s ∧ Throughout step P (step s e) es

theorem throughout_last {step : σ → ε → σ} {P : σ → Prop} {s : σ} {es : List ε}
    (h : Throughout step P s es) : P (run step s es) := by
  induction es generalizing s with
  | nil => exact h
  | cons e es ih => exact ih h.2

/-- A property that holds in every visited state holds after every prefix of the run. -/
theorem throughout_initial {step : σ → ε → σ} {P : σ → Prop} {s : σ} (es : List ε) {fs : List ε}
    (h : Throughout step P s (es ++ fs)) : P (run step s es) := by
  induction es generalizing s with
  | nil =>
      cases fs with
      | nil => exact h
      | cons f fs => exact h.1
  | cons e es ih => exact ih h.2

theorem throughout_mono {step : σ → ε → σ} {P Q : σ → Prop} (hPQ : ∀ s, P s → Q s) {s : σ}
    {es : List ε} (h : Throughout step P s es) : Throughout step Q s es := by
  induction es generalizing s with
  | nil => exact hPQ s h
  | cons e es ih => exact ⟨hPQ s h.1, ih h.2⟩

/-- A property that cannot be regained holds throughout if it holds in the end. -/
theorem throughout_of_last {step : σ → ε → σ} {P : σ → Prop}
    (hstay : ∀ s e, P (step s e) → P s) {s : σ} {es : List ε} (h : P (run step s es)) :
    Throughout step P s es := by
  induction es generalizing s with
  | nil => exact h
  | cons e es ih => exact ⟨hstay s e (throughout_initial [] (ih h)), ih h⟩

theorem along_append {step : σ → ε → σ} {good : σ → ε → Prop} {s : σ} {es fs : List ε} :
    Along step good s (es ++ fs) ↔ Along step good s es ∧ Along step good (run step s es) fs := by
  induction es generalizing s with
  | nil => exact ⟨fun h => ⟨trivial, h⟩, fun h => h.2⟩
  | cons e es ih =>
      rw [List.cons_append, Along, Along, ih, and_assoc]
      rfl

/-- A condition on the events alone. -/
theorem along_of_forall {step : σ → ε → σ} {kind : ε → Prop} (s : σ) {es : List ε}
    (h : ∀ e ∈ es, kind e) : Along step (fun _ e => kind e) s es := by
  induction es generalizing s with
  | nil => trivial
  | cons e es ih =>
      obtain ⟨he, hes⟩ := List.forall_mem_cons.mp h
      exact ⟨he, ih _ hes⟩

/-- A run whose steps are all good leads from `s` to `t`. -/
def Reaches (step : σ → ε → σ) (good : σ → ε → Prop) (s t : σ) : Prop :=
  ∃ es, Along step good s es ∧ run step s es = t

theorem Reaches.refl (step : σ → ε → σ) (good : σ → ε → Prop) (s : σ) : Reaches step good s s :=
  ⟨[], trivial, rfl⟩

theorem Reaches.step {step : σ → ε → σ} {good : σ → ε → Prop} {s t : σ} {e : ε} (hgood : good s e)
    (h : step s e = t) : Reaches step good s t :=
  ⟨[e], ⟨hgood, trivial⟩, h⟩

theorem Reaches.trans {step : σ → ε → σ} {good : σ → ε → Prop} {s t u : σ}
    (h : Reaches step good s t) (h' : Reaches step good t u) : Reaches step good s u := by
  obtain ⟨es, hes, rfl⟩ := h
  obtain ⟨fs, hfs, rfl⟩ := h'
  exact ⟨es ++ fs, along_append.mpr ⟨hes, hfs⟩, run_append step s es fs⟩

/-- **A simulation of steps is a simulation of runs.** One step may be several below. -/
theorem run_simulates {τ δ : Type} {step : σ → ε → σ} {good : σ → ε → Prop} {below : τ → δ → τ}
    {R : σ → τ → Prop} (hstep : ∀ s t e, R s t → good s e → ∃ ds, R (step s e) (run below t ds))
    {s : σ} {t : τ} (h : R s t) {es : List ε} (hgood : Along step good s es) :
    ∃ ds, R (run step s es) (run below t ds) := by
  induction es generalizing s t with
  | nil => exact ⟨[], h⟩
  | cons e es ih =>
      obtain ⟨ds, hds⟩ := hstep s t e h hgood.1
      obtain ⟨ds', hds'⟩ := ih hds hgood.2
      exact ⟨ds ++ ds', by rw [run_append]; exact hds'⟩

/-! ## Invariants -/

/-- **What every step keeps, every run keeps.** -/
theorem run_invariant {step : σ → ε → σ} {J : σ → Prop} (hJ : ∀ s e, J s → J (step s e))
    {s : σ} (h : J s) (es : List ε) : J (run step s es) := by
  induction es generalizing s with
  | nil => exact h
  | cons e es ih => exact ih (hJ s e h)

theorem throughout_of_invariant {step : σ → ε → σ} {J : σ → Prop}
    (hJ : ∀ s e, J s → J (step s e)) {s : σ} (h : J s) (es : List ε) : Throughout step J s es := by
  induction es generalizing s with
  | nil => exact h
  | cons e es ih => exact ⟨h, ih (hJ s e h)⟩

/-- What every step from a state of an invariant meets, every step of its runs meets. -/
theorem along_of_invariant {step : σ → ε → σ} {J : σ → Prop} {good : σ → ε → Prop}
    (hJ : ∀ s e, J s → J (step s e)) (hgood : ∀ s e, J s → good s e) {s : σ} (h : J s)
    (es : List ε) : Along step good s es := by
  induction es generalizing s with
  | nil => trivial
  | cons e es ih => exact ⟨hgood s e h, ih (hJ s e h)⟩

/-- Conditions that agree on the states of an invariant agree along its runs. -/
theorem along_congr {step : σ → ε → σ} {J : σ → Prop} {good good' : σ → ε → Prop}
    (hJ : ∀ s e, J s → J (step s e)) (hiff : ∀ s e, J s → (good s e ↔ good' s e)) {s : σ}
    (h : J s) (es : List ε) : Along step good s es ↔ Along step good' s es := by
  induction es generalizing s with
  | nil => exact Iff.rfl
  | cons e es ih => exact and_congr (hiff s e h) (ih (hJ s e h))

/-- **A flag that only bad steps set, and no step clears**, is set in the end exactly if it was set
before or one of the steps was bad. -/
theorem run_flag_iff {step : σ → ε → σ} {J flag : σ → Prop} {bad : σ → ε → Prop}
    (hJ : ∀ s e, J s → J (step s e)) (hflag : ∀ s e, J s → (flag (step s e) ↔ flag s ∨ bad s e))
    {s : σ} (h : J s) (es : List ε) :
    flag (run step s es) ↔
      flag s ∨ ∃ es₁ e es₂, es = es₁ ++ e :: es₂ ∧ bad (run step s es₁) e := by
  induction es generalizing s with
  | nil =>
      constructor
      · exact .inl
      · rintro (hs | ⟨es₁, e, es₂, hnil, -⟩)
        · exact hs
        · simp at hnil
  | cons e es ih =>
      rw [run_cons, ih (hJ s e h), hflag s e h, or_assoc]
      refine or_congr_right ?_
      constructor
      · rintro (hbad | ⟨es₁, e', es₂, rfl, hbad⟩)
        · exact ⟨[], e, es, rfl, hbad⟩
        · exact ⟨e :: es₁, e', es₂, rfl, hbad⟩
      · rintro ⟨es₁, e', es₂, heq, hbad⟩
        cases es₁ with
        | nil =>
            cases heq
            exact .inl hbad
        | cons e₁ es₁ =>
            cases heq
            exact .inr ⟨es₁, e', es₂, rfl, hbad⟩

/-- Some step of the run is bad, and none behind it clears. -/
def SetLast (step : σ → ε → σ) (bad : σ → ε → Prop) (clears : ε → Prop) (s : σ) (es : List ε) :
    Prop :=
  ∃ es₁ e es₂, es = es₁ ++ e :: es₂ ∧ bad (run step s es₁) e ∧ ∀ e' ∈ es₂, ¬ clears e'

/-- **A flag that bad steps set and others clear** is set in the end exactly if no step clears it
behind the last one that sets it, or none does at all and it was set before. -/
theorem run_latch_iff {step : σ → ε → σ} {J flag : σ → Prop} {bad : σ → ε → Prop} {clears : ε → Prop}
    (hJ : ∀ s e, J s → J (step s e))
    (hflag : ∀ s e, J s → (flag (step s e) ↔ (flag s ∧ ¬ clears e) ∨ bad s e))
    {s : σ} (h : J s) (es : List ε) :
    flag (run step s es) ↔
      (flag s ∧ ∀ e ∈ es, ¬ clears e) ∨ SetLast step bad clears s es := by
  induction es generalizing s with
  | nil =>
      constructor
      · exact fun hs => .inl ⟨hs, fun _ he => absurd he List.not_mem_nil⟩
      · rintro (⟨hs, -⟩ | ⟨es₁, e, es₂, hnil, -⟩)
        · exact hs
        · simp at hnil
  | cons e es ih =>
      have hset : SetLast step bad clears s (e :: es) ↔
          (bad s e ∧ ∀ e' ∈ es, ¬ clears e') ∨ SetLast step bad clears (step s e) es := by
        constructor
        · rintro ⟨es₁, e', es₂, heq, hbad, hkeep⟩
          cases es₁ with
          | nil =>
              cases heq
              exact .inl ⟨hbad, hkeep⟩
          | cons e₁ es₁ =>
              cases heq
              exact .inr ⟨es₁, e', es₂, rfl, hbad, hkeep⟩
        · rintro (⟨hbad, hkeep⟩ | ⟨es₁, e', es₂, rfl, hbad, hkeep⟩)
          · exact ⟨[], e, es, rfl, hbad, hkeep⟩
          · exact ⟨e :: es₁, e', es₂, rfl, hbad, hkeep⟩
      rw [run_cons, ih (hJ s e h), hflag s e h, hset, List.forall_mem_cons, or_and_right, and_assoc,
        or_assoc]

/-- A run that is not good throughout has a first bad step. -/
theorem first_bad {step : σ → ε → σ} {J : σ → Prop} {good : σ → ε → Prop}
    (hJ : ∀ s e, J s → good s e → J (step s e)) {s : σ} {es : List ε} (h : J s)
    (hg : ¬ Along step good s es) :
    ∃ es₁ e es₂, es = es₁ ++ e :: es₂ ∧ J (run step s es₁) ∧ ¬ good (run step s es₁) e := by
  induction es generalizing s with
  | nil => exact absurd trivial hg
  | cons e es ih =>
      rcases Classical.em (good s e) with hgood | hbad
      · obtain ⟨es₁, e', es₂, heq, hJ₁, hbad⟩ := ih (hJ s e h hgood) (fun hes => hg ⟨hgood, hes⟩)
        exact ⟨e :: es₁, e', es₂, by rw [heq, List.cons_append], hJ₁, hbad⟩
      · exact ⟨[], e, es, rfl, h, hbad⟩

theorem throughout_of_along {step : σ → ε → σ} {J P : σ → Prop} {good : σ → ε → Prop}
    (hJ : ∀ s e, J s → good s e → J (step s e)) (hP : ∀ s, J s → P s) {s : σ} {es : List ε}
    (h : J s) (hg : Along step good s es) : Throughout step P s es := by
  induction es generalizing s with
  | nil => exact hP s h
  | cons e es ih => exact ⟨hP s h, ih (hJ s e h hg.1) hg.2⟩

/--
**Correct exactly as long as the condition is met.**

`J` is kept by good steps and implies `P`; a bad step from a state in `J` leads
straight out of `P`. Then a run visits only states in `P` if and only if all its
steps are good.
-/
theorem throughout_iff_along {step : σ → ε → σ} {J P : σ → Prop} {good : σ → ε → Prop}
    (hJ : ∀ s e, J s → good s e → J (step s e)) (hP : ∀ s, J s → P s)
    (hbad : ∀ s e, J s → ¬ good s e → ¬ P (step s e)) {s : σ} (h : J s) (es : List ε) :
    Throughout step P s es ↔ Along step good s es := by
  refine ⟨?_, throughout_of_along hJ hP h⟩
  intro ht
  induction es generalizing s with
  | nil => trivial
  | cons e es ih =>
      have hg : good s e := by
        rcases Classical.em (good s e) with hg | hg
        · exact hg
        · exact absurd (throughout_initial [] ht.2) (hbad s e h hg)
      exact ⟨hg, ih (hJ s e h hg) ht.2⟩

/-! ## What a part of a system depends on -/

/--
**A part that other steps leave alone depends on its own steps only.**

`view` is what there is to see of the part. The steps that concern it treat states that
look the same alike, and the others do not change what is seen. Then a run shows what
is left of it without the others.
-/
theorem view_filter {τ : Type} {step : σ → ε → σ} {view : σ → τ} {concerns : ε → Bool}
    (hown : ∀ s t e, concerns e = true → view s = view t → view (step s e) = view (step t e))
    (hother : ∀ s e, concerns e = false → view (step s e) = view s) {s t : σ}
    (h : view s = view t) (es : List ε) :
    view (run step s es) = view (run step t (es.filter concerns)) := by
  induction es generalizing s t with
  | nil => exact h
  | cons e es ih =>
      cases he : concerns e with
      | true =>
          rw [List.filter_cons_of_pos he]
          exact ih (hown s t e he h)
      | false =>
          rw [List.filter_cons_of_neg (by rw [he]; exact Bool.false_ne_true)]
          exact ih ((hother s e he).trans h)

/-- What the steps of a run keep, the run keeps. -/
theorem run_keeps {J : σ → Prop} {step : σ → ε → σ} {kind : ε → Prop}
    (hJ : ∀ s e, kind e → J s → J (step s e)) {s : σ} (h : J s) {es : List ε}
    (hes : ∀ e ∈ es, kind e) : J (run step s es) := by
  induction es generalizing s with
  | nil => exact h
  | cons e es ih =>
      obtain ⟨he, hes⟩ := List.forall_mem_cons.mp hes
      exact ih (hJ s e he h) hes

/-- What no step of a run changes is what it was. -/
theorem run_unchanged {τ : Type} {step : σ → ε → σ} {view : σ → τ} {kind : ε → Prop}
    (hstep : ∀ s e, kind e → view (step s e) = view s) (s : σ) {es : List ε}
    (hes : ∀ e ∈ es, kind e) : view (run step s es) = view s :=
  @run_keeps _ _ (fun t => view t = view s) step kind
    (fun t e he ht => (hstep t e he).trans ht) s rfl es hes

end Runs
