import MiniHF.Lib.Runs

/-!
# Operations interrupted between their statements

Operations run one at a time, but an interrupt may come between any two of their
statements. `Code` is what is left of an operation to run, `interleavedStep` the
system that runs it a statement at a time, and `atomicStep` the one that runs
every operation as a whole.

An interrupt inside an operation is harmless if the operation ends as though it
had not happened, or as though it had come right behind it. If it is harmless
wherever it can come (`Tolerates`), every interleaved run is a run of whole
operations with interrupts between them (`interleaved_refines_atomic`), and what
holds of those holds of it.
-/

namespace Interrupts

open Runs

variable {σ Op : Type}

/-- Statements still to run. -/
inductive Code (σ : Type) where
  /-- The operation has returned. -/
  | done
  /-- One statement, and what follows. -/
  | act (f : σ → σ) (k : Code σ)
  /-- Read the state to decide what follows. -/
  | look (k : σ → Code σ)

namespace Code

/-- Run to the end, uninterrupted. -/
def exec : Code σ → σ → σ
  | done, s => s
  | act f k, s => k.exec (f s)
  | look k, s => (k s).exec s

/-- Run one statement. -/
def next : Code σ → σ → Code σ × σ
  | done, s => (done, s)
  | act f k, s => (k, f s)
  | look k, s => (k s, s)

/-- A call: what follows when the callee has returned. -/
def andThen : Code σ → Code σ → Code σ
  | done, k' => k'
  | act f k, k' => act f (k.andThen k')
  | look k, k' => look fun s => (k s).andThen k'

@[simp] theorem exec_done (s : σ) : (done : Code σ).exec s = s := rfl

@[simp] theorem exec_act (f : σ → σ) (k : Code σ) (s : σ) : (act f k).exec s = k.exec (f s) := rfl

@[simp] theorem exec_look (k : σ → Code σ) (s : σ) : (look k).exec s = (k s).exec s := rfl

@[simp] theorem exec_andThen (k k' : Code σ) (s : σ) :
    (k.andThen k').exec s = k'.exec (k.exec s) := by
  induction k generalizing s with
  | done => rfl
  | act f k ih => exact ih (f s)
  | look k ih => exact ih s s

theorem exec_next (k : Code σ) (s : σ) : (k.next s).1.exec (k.next s).2 = k.exec s := by
  cases k <;> rfl

/-- No statement changes what `π` shows. -/
def Keeps {α : Type} (π : σ → α) : Code σ → Prop
  | done => True
  | act f k => (∀ s, π (f s) = π s) ∧ k.Keeps π
  | look k => ∀ s, (k s).Keeps π

theorem keeps_andThen {α : Type} {π : σ → α} {k k' : Code σ} (h : k.Keeps π) (h' : k'.Keeps π) :
    (k.andThen k').Keeps π := by
  induction k with
  | done => exact h'
  | act f k ih => exact ⟨h.1, ih h.2⟩
  | look k ih => exact fun s => ih s (h s)

/-- **What no statement changes, the operation does not change.** -/
theorem exec_keeps {α : Type} {π : σ → α} {k : Code σ} (h : k.Keeps π) (s : σ) :
    π (k.exec s) = π s := by
  induction k generalizing s with
  | done => rfl
  | act f k ih => rw [exec_act, ih h.2, h.1]
  | look k ih => exact ih s (h s) s

/-- Every statement relates the state before it to the state after it by `R`. -/
def Obeys (R : σ → σ → Prop) : Code σ → Prop
  | done => True
  | act f k => (∀ s, R s (f s)) ∧ k.Obeys R
  | look k => ∀ s, (k s).Obeys R

theorem obeys_andThen {R : σ → σ → Prop} {k k' : Code σ} (h : k.Obeys R) (h' : k'.Obeys R) :
    (k.andThen k').Obeys R := by
  induction k with
  | done => exact h'
  | act f k ih => exact ⟨h.1, ih h.2⟩
  | look k ih => exact fun s => ih s (h s)

/-- **What every statement obeys, the operation obeys**, if doing nothing does and it composes. -/
theorem exec_obeys {R : σ → σ → Prop} (hrefl : ∀ s, R s s)
    (htrans : ∀ {s t u}, R s t → R t u → R s u) {k : Code σ} (h : k.Obeys R) (s : σ) :
    R s (k.exec s) := by
  induction k generalizing s with
  | done => exact hrefl s
  | act f k ih => exact htrans (h.1 s) (ih h.2 (f s))
  | look k ih => exact ih s (h s) s

end Code

/-- Operations, when they may begin, what their begin does, and the interrupt. -/
structure System (σ Op : Type) where
  code : Op → Code σ
  enabled : Op → σ → Bool
  entry : Op → σ → σ
  /-- The interrupt; where it is not pending it does nothing. -/
  irq : σ → σ
  /-- Once served it is no longer pending. -/
  irq_irq : ∀ s, irq (irq s) = irq s

/-- A state and what is left of the running operation. -/
structure Machine (σ : Type) where
  state : σ
  todo : Code σ

/-- What can happen in the interleaved system. -/
inductive Event (Op : Type) where
  | begin (op : Op)
  | exec
  | irq

/-- What can happen in the atomic system. -/
inductive AtomicEvent (Op : Type) where
  | op (op : Op)
  | irq

def interleavedStep (sys : System σ Op) (m : Machine σ) : Event Op → Machine σ
  | .begin op =>
      match m.todo with
      | .done =>
          if sys.enabled op m.state then ⟨sys.entry op m.state, sys.code op⟩ else m
      | _ => m
  | .exec => ⟨(m.todo.next m.state).2, (m.todo.next m.state).1⟩
  | .irq => { m with state := sys.irq m.state }

def atomicStep (sys : System σ Op) (s : σ) : AtomicEvent Op → σ
  | .op op => if sys.enabled op s then (sys.code op).exec (sys.entry op s) else s
  | .irq => sys.irq s

/-- The state once the running operation has run to its end. -/
def Machine.finish (m : Machine σ) : σ := m.todo.exec m.state

/-- The interrupt is absorbed by what follows, or might as well come behind it. -/
def Harmless (irq : σ → σ) (k : Code σ) (s : σ) : Prop :=
  k.exec (irq s) = k.exec s ∨ k.exec (irq s) = irq (k.exec s)

/-- Wherever it comes, the interrupt is harmless. -/
def Tolerates (irq : σ → σ) : Code σ → σ → Prop
  | .done, _ => True
  | .act f k, s =>
      Harmless irq (.act f k) s ∧ Tolerates irq k (f s) ∧ Tolerates irq k (f (irq s))
  | .look k, s =>
      Harmless irq (.look k) s ∧ Tolerates irq (k s) s ∧ Tolerates irq (k (irq s)) (irq s)

/-- The interrupt is not pending before any statement. -/
def Calm (irq : σ → σ) : Code σ → σ → Prop
  | .done, _ => True
  | .act f k, s => irq s = s ∧ Calm irq k (f s)
  | .look k, s => irq s = s ∧ Calm irq (k s) s

variable {irq : σ → σ}

theorem harmless_of_calm {k : Code σ} {s : σ} (h : irq s = s) : Harmless irq k s :=
  Or.inl (by rw [h])

theorem tolerates_of_calm {k : Code σ} {s : σ} (h : Calm irq k s) : Tolerates irq k s := by
  induction k generalizing s with
  | done => trivial
  | act f k ih =>
      obtain ⟨hs, hk⟩ := h
      refine ⟨harmless_of_calm hs, ih hk, ?_⟩
      rw [hs]
      exact ih hk
  | look k ih =>
      obtain ⟨hs, hk⟩ := h
      refine ⟨harmless_of_calm hs, ih s hk, ?_⟩
      rw [hs]
      exact ih s hk

theorem calm_andThen {k k' : Code σ} {s : σ} (h : Calm irq k s) (h' : Calm irq k' (k.exec s)) :
    Calm irq (k.andThen k') s := by
  induction k generalizing s with
  | done => exact h'
  | act f k ih => exact ⟨h.1, ih h.2 h'⟩
  | look k ih => exact ⟨h.1, ih s h.2 h'⟩

theorem Tolerates.harmless {k : Code σ} {s : σ} (h : Tolerates irq k s) : Harmless irq k s := by
  cases k with
  | done => exact Or.inr rfl
  | act f k => exact h.1
  | look k => exact h.1

theorem Tolerates.next {k : Code σ} {s : σ} (h : Tolerates irq k s) :
    Tolerates irq (k.next s).1 (k.next s).2 := by
  cases k with
  | done => trivial
  | act f k => exact h.2.1
  | look k => exact h.2.1

theorem Tolerates.interrupted {k : Code σ} {s : σ} (hirq : ∀ s, irq (irq s) = irq s)
    (h : Tolerates irq k s) : Tolerates irq k (irq s) := by
  cases k with
  | done => trivial
  | act f k => exact ⟨harmless_of_calm (hirq s), h.2.2, by rw [hirq]; exact h.2.2⟩
  | look k => exact ⟨harmless_of_calm (hirq s), h.2.2, by rw [hirq]; exact h.2.2⟩

/--
**An interleaved run is a run of whole operations.**

`J` is an invariant of whole operations under which every operation tolerates the
interrupt. Then whatever the interrupts, once the running operation has run to its
end the state is one that whole operations, with interrupts between them, reach.
-/
theorem interleaved_refines_atomic (sys : System σ Op) {J : σ → Prop}
    (hJ : ∀ s e, J s → J (atomicStep sys s e))
    (htol : ∀ op s, J s → sys.enabled op s → Tolerates sys.irq (sys.code op) (sys.entry op s))
    {m : Machine σ} (hm : J m.finish) (ht : Tolerates sys.irq m.todo m.state)
    (es : List (Event Op)) :
    ∃ as, (run (interleavedStep sys) m es).finish = run (atomicStep sys) m.finish as := by
  induction es generalizing m with
  | nil => exact ⟨[], rfl⟩
  | cons e es ih =>
      rw [run_cons]
      -- one step of the interleaved system is at most one step of the atomic one
      have hstep : ((interleavedStep sys m e).finish = m.finish
            ∨ ∃ a, (interleavedStep sys m e).finish = atomicStep sys m.finish a)
          ∧ Tolerates sys.irq (interleavedStep sys m e).todo (interleavedStep sys m e).state := by
        cases e with
        | exec => exact ⟨Or.inl (Code.exec_next _ _), ht.next⟩
        | irq =>
            refine ⟨?_, ht.interrupted sys.irq_irq⟩
            rcases ht.harmless with habsorbed | hdeferred
            · exact Or.inl habsorbed
            · exact Or.inr ⟨.irq, hdeferred⟩
        | begin op =>
            obtain ⟨s, todo⟩ := m
            cases todo with
            | done =>
                rw [interleavedStep]
                dsimp only
                split
                · rename_i hen
                  exact ⟨Or.inr ⟨.op op, by rw [atomicStep, if_pos (by exact hen)]; rfl⟩,
                    htol op s hm hen⟩
                · exact ⟨Or.inl rfl, trivial⟩
            | act f k => exact ⟨Or.inl rfl, ht⟩
            | look k => exact ⟨Or.inl rfl, ht⟩
      obtain ⟨hfinish, ht'⟩ := hstep
      rcases hfinish with hsame | ⟨a, ha⟩
      · obtain ⟨as, has⟩ := ih (by rw [hsame]; exact hm) ht'
        exact ⟨as, by rw [has, hsame]⟩
      · obtain ⟨as, has⟩ := ih (by rw [ha]; exact hJ _ a hm) ht'
        exact ⟨a :: as, by rw [has, ha]; rfl⟩

/-- An operation that only the interrupt gets into ends as it would have on its own, or with the
interrupt behind it. -/
theorem run_interrupted (sys : System σ Op) {m : Machine σ} (ht : Tolerates sys.irq m.todo m.state)
    {es : List (Event Op)} (hes : ∀ e ∈ es, e = .exec ∨ e = .irq) :
    (run (interleavedStep sys) m es).finish = m.finish
      ∨ (run (interleavedStep sys) m es).finish = sys.irq m.finish := by
  induction es generalizing m with
  | nil => exact Or.inl rfl
  | cons e es ih =>
      obtain ⟨he, hrest⟩ := List.forall_mem_cons.mp hes
      rw [run_cons]
      rcases he with rfl | rfl
      · have hsame : (interleavedStep sys m .exec).finish = m.finish := Code.exec_next _ _
        rw [← hsame]
        exact ih ht.next hrest
      · have hnext := @ih (interleavedStep sys m .irq) (ht.interrupted sys.irq_irq) hrest
        rcases ht.harmless with habsorbed | hdeferred
        · have hsame : (interleavedStep sys m .irq).finish = m.finish := habsorbed
          rw [← hsame]
          exact hnext
        · -- once it is behind the operation, another one finds nothing pending
          have hbehind : (interleavedStep sys m .irq).finish = sys.irq m.finish := hdeferred
          rw [hbehind, sys.irq_irq, or_self_iff] at hnext
          exact Or.inr hnext

/-- An operation that is left alone runs to its end. -/
theorem run_finish (sys : System σ Op) (m : Machine σ) :
    ∃ es, run (interleavedStep sys) m es = ⟨m.finish, .done⟩ := by
  obtain ⟨s, todo⟩ := m
  induction todo generalizing s with
  | done => exact ⟨[], rfl⟩
  | act f k ih =>
      obtain ⟨es, hes⟩ := ih (f s)
      exact ⟨.exec :: es, hes⟩
  | look k ih =>
      obtain ⟨es, hes⟩ := ih s s
      exact ⟨.exec :: es, hes⟩

/-- **A run of whole operations is an interleaved run.** -/
theorem atomic_refines_interleaved (sys : System σ Op) (s : σ) (as : List (AtomicEvent Op)) :
    ∃ es, run (interleavedStep sys) ⟨s, .done⟩ es = ⟨run (atomicStep sys) s as, .done⟩ := by
  induction as generalizing s with
  | nil => exact ⟨[], rfl⟩
  | cons a as ih =>
      obtain ⟨es, hes⟩ := ih (atomicStep sys s a)
      have hstep : ∃ fs, run (interleavedStep sys) ⟨s, .done⟩ fs = ⟨atomicStep sys s a, .done⟩ := by
        cases a with
        | irq => exact ⟨[.irq], rfl⟩
        | op op =>
            obtain ⟨fs, hfs⟩ := run_finish sys (interleavedStep sys ⟨s, .done⟩ (.begin op))
            refine ⟨.begin op :: fs, ?_⟩
            rw [run_cons, hfs, interleavedStep, atomicStep]
            dsimp only
            split <;> rfl
      obtain ⟨fs, hfs⟩ := hstep
      exact ⟨fs ++ es, by rw [run_append, hfs, hes, run_cons]⟩

/-- **What whole operations keep holds whenever no operation is running.** -/
theorem interleaved_invariant (sys : System σ Op) {J : σ → Prop}
    (hJ : ∀ s e, J s → J (atomicStep sys s e))
    (htol : ∀ op s, J s → sys.enabled op s → Tolerates sys.irq (sys.code op) (sys.entry op s))
    {s : σ} (h : J s) (es : List (Event Op))
    (hdone : (run (interleavedStep sys) ⟨s, .done⟩ es).todo = .done) :
    J (run (interleavedStep sys) ⟨s, .done⟩ es).state := by
  obtain ⟨as, has⟩ := interleaved_refines_atomic sys hJ htol (m := ⟨s, .done⟩) h trivial es
  have hJ' := run_invariant hJ h as
  rw [Machine.finish, hdone] at has
  rw [Code.exec] at has
  rw [has]
  exact hJ'

end Interrupts
