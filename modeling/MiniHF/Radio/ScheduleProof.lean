import MiniHF.Radio.Schedule

/-!
# The schedule invariant

`Scheduled` ties sequence, flag, timer and work item together and says what has
been applied. Whole operations keep it (`scheduled_step`).

That leaves expiries inside an operation. The work handler begins with the timer
unarmed and arms it in its last statement. A start or a stop may be hit before it
stops the timer, but then the work item the expiry queues is cancelled by the next
statement but one. So every operation tolerates the timer, and the invariant holds
in the interleaved system whenever no operation is running.
-/

namespace MiniHF

open Interrupts Interrupts.Code Runs

namespace Device

/-- The first `n` symbols that are applied: those of the sequence in order, over and over. -/
def played (seq : TxSequence) (n : Nat) : List TxSymbol :=
  (List.range n).map fun j => seq.symbol (j % seq.totalSymbols)

theorem played_succ (seq : TxSequence) (n : Nat) :
    played seq (n + 1) = played seq n ++ [seq.symbol (n % seq.totalSymbols)] := by
  simp [played, List.range_succ]

/-- The invariant of the schedule between operations. -/
structure Scheduled (s : Schedule) : Prop where
  /-- The flag says whether there is a sequence. -/
  active : s.engineActive = true ↔ s.activeSeq.isSome
  /-- An idle engine waits for nothing. -/
  idle : s.activeSeq = none → s.txTimer = none ∧ s.txWork = false
  /-- A running one waits for its timer or for its work item, and not for both. -/
  waits : ∀ seq, s.activeSeq = some seq → s.txTimer.isSome = !s.txWork
  /-- It plays the sequence last started; its index is that of the last symbol applied. -/
  index : ∀ seq, s.activeSeq = some seq → ∃ orig, s.started = some orig
    ∧ seq = { orig with currentIndex := (s.applied.length - 1) % orig.totalSymbols }
  /-- The index names a symbol. -/
  inside : ∀ seq, s.activeSeq = some seq → seq.currentIndex < seq.totalSymbols
  /-- Every symbol after the first was applied for an expiry of its predecessor's timer. -/
  paced : ∀ seq, s.activeSeq = some seq →
    s.applied.length + s.txWork.toNat = s.expiries + 1
  /-- The symbols were applied in order, and more than once only if the sequence repeats. -/
  order : ∀ orig, s.started = some orig → 0 < s.applied.length
    ∧ s.applied = played orig s.applied.length
    ∧ (orig.repeats = false → s.applied.length ≤ orig.totalSymbols)

/-- The schedule `tx_engine_init` leaves. -/
def initSchedule : Schedule where
  activeSeq := none
  engineActive := false
  txTimer := none
  txWork := false
  started := none
  applied := []
  expiries := 0

theorem scheduled_init : Scheduled initSchedule where
  active := by simp [initSchedule]
  idle _ := ⟨rfl, rfl⟩
  waits _ h := by simp [initSchedule] at h
  index _ h := by simp [initSchedule] at h
  inside _ h := by simp [initSchedule] at h
  paced _ h := by simp [initSchedule] at h
  order _ h := by simp [initSchedule] at h

/-! ## Whole operations keep the invariant -/

theorem scheduled_start {seq : TxSequence} (h : seq.totalSymbols ≠ 0) :
    Scheduled (startSchedule seq) where
  active := by simp [startSchedule]
  idle h := by simp [startSchedule] at h
  waits _ _ := rfl
  index seq' h := by
    simp only [startSchedule, Option.some.injEq] at h
    exact ⟨seq, rfl, by rw [← h]; simp [startSchedule, Nat.zero_mod]⟩
  inside seq' h := by
    simp only [startSchedule, Option.some.injEq] at h
    rw [← h]
    exact Nat.pos_of_ne_zero ‹_›
  paced _ _ := rfl
  order orig h := by
    simp only [startSchedule, Option.some.injEq] at h
    subst h
    exact ⟨by simp [startSchedule], by simp [startSchedule, played], fun _ => by
      simp [startSchedule]; omega⟩

theorem Scheduled.stop {s : Schedule} (h : Scheduled s) :
    Scheduled { s with
      activeSeq := none, engineActive := false, txTimer := none, txWork := false, expiries := 0 } where
  active := by simp
  idle _ := ⟨rfl, rfl⟩
  waits _ h := by simp at h
  index _ h := by simp at h
  inside _ h := by simp at h
  paced _ h := by simp at h
  order := h.order

theorem Scheduled.expiry {s : Schedule} (h : Scheduled s) : Scheduled (expirySchedule s) := by
  rw [expirySchedule]
  cases ht : s.txTimer with
  | none => exact h
  | some duration =>
      -- the timer was armed, so no work item was queued
      have hwork : ∀ seq, s.activeSeq = some seq → s.txWork = false := by
        intro seq hseq
        have := h.waits seq hseq
        rw [ht] at this
        simpa using this
      constructor
      case active => exact h.active
      case idle =>
        intro hnone
        exact absurd (h.idle hnone).1 (by simp [ht])
      case waits => intros; rfl
      case index => exact h.index
      case inside => exact h.inside
      case paced =>
        intro seq hseq
        have := h.paced seq hseq
        rw [hwork seq hseq] at this
        simp at this ⊢
        omega
      case order => exact h.order

theorem succ_mod (m : Nat) {t : Nat} (ht : 0 < t) :
    (m + 1) % t = if m % t + 1 ≥ t then 0 else m % t + 1 := by
  have hlt := Nat.mod_lt m ht
  rw [← Nat.mod_add_mod]
  split
  · rw [show m % t + 1 = t by omega, Nat.mod_self]
  · exact Nat.mod_eq_of_lt (by omega)

/-- The next symbol due is the next one in order; there is none behind the last of a single pass. -/
theorem advance_played {orig : TxSequence} {n : Nat} (hn : 0 < n) (htotal : 0 < orig.totalSymbols) :
    advance { orig with currentIndex := (n - 1) % orig.totalSymbols }
      = if (n - 1) % orig.totalSymbols + 1 ≥ orig.totalSymbols ∧ orig.repeats = false then none
        else some { orig with currentIndex := n % orig.totalSymbols } := by
  have hmod := succ_mod (n - 1) htotal
  rw [Nat.sub_add_cancel hn] at hmod
  rw [advance]
  dsimp only
  by_cases hlast : (n - 1) % orig.totalSymbols + 1 ≥ orig.totalSymbols
  · rw [if_pos hlast] at hmod ⊢
    rw [hmod]
    cases orig.repeats <;> simp [hlast]
  · rw [if_neg hlast] at hmod ⊢
    rw [if_neg (fun h => hlast h.1), hmod]

theorem Scheduled.work {s : Schedule} (h : Scheduled s) (hwork : s.txWork = true) :
    Scheduled (workSchedule { s with txWork := false }) := by
  cases hseq : s.activeSeq with
  | none => exact absurd (h.idle hseq).2 (by simp [hwork])
  | some seq =>
      have hinside := h.inside seq hseq
      obtain ⟨orig, horig, rfl⟩ := h.index seq hseq
      obtain ⟨hpos, hplayed, hsingle⟩ := h.order orig horig
      have htotal : 0 < orig.totalSymbols := Nat.zero_lt_of_lt hinside
      have hpaced := h.paced _ hseq
      rw [hwork] at hpaced
      have hadv := advance_played (n := s.applied.length) hpos htotal
      rw [workSchedule]
      dsimp only
      rw [hadv]
      by_cases hend : (s.applied.length - 1) % orig.totalSymbols + 1 ≥ orig.totalSymbols
          ∧ orig.repeats = false
      · -- the last symbol of a single pass is over
        rw [if_pos hend]
        have htimer : s.txTimer = none := by
          have := h.waits _ hseq
          rw [hwork] at this
          simpa using this
        exact ⟨by simp, fun _ => ⟨htimer, rfl⟩, by simp, by simp, by simp, by simp, h.order⟩
      · -- the next symbol, or the first one again
        rw [if_neg hend]
        refine ⟨by simp [h.active, hseq], by simp, by simp, fun seq' hseq' => ?_,
          fun seq' hseq' => ?_, fun _ _ => ?_, fun orig' horig' => ?_⟩
        · simp only [Option.some.injEq] at hseq'
          exact ⟨orig, horig, by rw [← hseq']; simp⟩
        · simp only [Option.some.injEq] at hseq'
          rw [← hseq']
          exact Nat.mod_lt _ htotal
        · simp at hpaced ⊢
          omega
        · obtain rfl : orig' = orig := Option.some.inj (horig'.symm.trans horig)
          refine ⟨by simp, ?_, fun hrep => ?_⟩
          · dsimp only
            rw [List.length_append, List.length_singleton, played_succ, ← hplayed]
            rfl
          · have hle := hsingle hrep
            have hmod : (s.applied.length - 1) % orig'.totalSymbols = s.applied.length - 1 :=
              Nat.mod_eq_of_lt (by omega)
            simp only [hrep, and_true] at hend
            simp
            omega

/-- The invariant as a property of the device. -/
def WellScheduled (d : Device) : Prop := Scheduled d.schedule

/-- **What one event does to the schedule.** -/
theorem schedule_atomicStep (d : Device) (e : AtomicEvent EngineOp) :
    (atomicStep engine d e).schedule = d.schedule
      ∨ (atomicStep engine d e).schedule = expirySchedule d.schedule
      ∨ (atomicStep engine d e).schedule = (txEngineStop.exec d).schedule
      ∨ (d.schedule.txWork = true
        ∧ (atomicStep engine d e).schedule = workSchedule { d.schedule with txWork := false })
      ∨ ∃ seq : TxSequence, seq.totalSymbols ≠ 0
        ∧ (atomicStep engine d e).schedule = startSchedule seq := by
  cases e with
  | irq => exact Or.inr (Or.inl (schedule_expiry d))
  | op op =>
      rw [atomicStep]
      split
      · rename_i hen
        cases op with
        | stop => exact Or.inr (Or.inr (Or.inl rfl))
        | work =>
            exact Or.inr (Or.inr (Or.inr (Or.inl ⟨hen, schedule_work { d with txWork := false }⟩)))
        | start seq =>
            cases seq with
            | none => exact Or.inl rfl
            | some seq =>
                by_cases hzero : seq.totalSymbols = 0
                · -- a sequence without symbols is refused
                  left
                  show ((txEngineStart (some seq)).exec d).schedule = _
                  rw [txEngineStart, if_pos hzero]
                  rfl
                · exact Or.inr (Or.inr (Or.inr (Or.inr ⟨seq, hzero, schedule_start d hzero⟩)))
      · exact Or.inl rfl

theorem scheduled_step (d : Device) (e : AtomicEvent EngineOp) (h : WellScheduled d) :
    WellScheduled (atomicStep engine d e) := by
  rw [WellScheduled]
  rcases schedule_atomicStep d e with hs | hs | hs | ⟨hwork, hs⟩ | ⟨seq, hzero, hs⟩
  · rw [hs]
    exact h
  · rw [hs]
    exact h.expiry
  · rw [hs, schedule_stop]
    exact h.stop
  · rw [hs]
    exact h.work hwork
  · rw [hs]
    exact scheduled_start hzero

/-! ## Expiries inside an operation -/

theorem expiry_none {d : Device} (h : d.schedule.txTimer = none) : d.txTimerExpiry = d := by
  have htimer : d.txTimer = none := h
  rw [txTimerExpiry, htimer]

theorem calm_txOff {d : Device} (h : d.schedule.txTimer = none) : Calm txTimerExpiry txOff d := by
  refine ⟨expiry_none h, expiry_none ?_, expiry_none ?_, trivial⟩ <;> simpa using h

theorem calm_applySymbol {sym : TxSymbol} {d : Device} (h : d.schedule.txTimer = none) :
    Calm txTimerExpiry (applySymbol sym) d := by
  refine ⟨expiry_none h, ?_⟩
  split
  · exact ⟨expiry_none (by simpa using h), trivial⟩
  · exact calm_txOff (by simpa using h)

theorem calm_nextSymbol {seq : TxSequence} {d : Device} (h : d.schedule.txTimer = none) :
    Calm txTimerExpiry (txNextSymbol seq) d := by
  refine ⟨expiry_none h, calm_andThen (calm_applySymbol h) ⟨expiry_none ?_, trivial⟩⟩
  rw [schedule_applySymbol]
  exact h

theorem calm_work {d : Device} (h : d.schedule.txTimer = none) :
    Calm txTimerExpiry txWorkHandler d := by
  refine ⟨expiry_none h, ?_⟩
  dsimp only
  cases d.activeSeq with
  | none => exact ⟨expiry_none h, trivial⟩
  | some seq =>
      refine ⟨expiry_none h, ?_⟩
      split
      · split
        · exact ⟨expiry_none h, expiry_none h, calm_nextSymbol h⟩
        · refine ⟨expiry_none h, calm_andThen (calm_txOff h) ⟨expiry_none ?_, expiry_none ?_, trivial⟩⟩
          · simpa using h
          · simpa using h
      · exact calm_nextSymbol h

/-- What `tx_engine_stop` does once it has stopped the timer and cancelled the work item. -/
def stopTail : Code Device :=
  txOff.andThen <| .act (setEngineActive false) <| .act (setActiveSeq none) .done

theorem calm_stopTail {d : Device} (h : d.schedule.txTimer = none) :
    Calm txTimerExpiry stopTail d := by
  refine calm_andThen (calm_txOff h) ⟨expiry_none ?_, expiry_none ?_, trivial⟩ <;> simpa using h

/-- **Stopping the timer and cancelling the work item undo an expiry.** -/
theorem stop_absorbs (text : String) (d : Device) :
    kWorkCancel (kTimerStop (printk text d.txTimerExpiry))
      = kWorkCancel (kTimerStop (printk text d)) := by
  cases h : d.txTimer <;> simp [txTimerExpiry, h, kWorkCancel, kTimerStop, kWorkSubmit, printk]

theorem stop_absorbs_late (d : Device) :
    kWorkCancel (kTimerStop d.txTimerExpiry) = kWorkCancel (kTimerStop d) := by
  cases h : d.txTimer <;> simp [txTimerExpiry, h, kWorkCancel, kTimerStop, kWorkSubmit]

/-- A stop tolerates the timer, whatever runs behind it with the timer stopped. -/
theorem tolerates_stop {k : Code Device} (d : Device)
    (hk : ∀ d : Device, d.schedule.txTimer = none → Calm txTimerExpiry k d) :
    Tolerates txTimerExpiry (txEngineStop.andThen k) d := by
  have htail : ∀ d : Device, Tolerates txTimerExpiry
      (.act kWorkCancel (stopTail.andThen k)) d.kTimerStop := by
    intro d
    refine tolerates_of_calm ⟨expiry_none rfl, calm_andThen (calm_stopTail rfl) (hk _ ?_)⟩
    simp [stopTail]
  -- before the `printk`, and before `k_timer_stop` with or without an earlier expiry
  refine ⟨Or.inl ?_, ⟨Or.inl ?_, htail _, htail _⟩, ⟨Or.inl ?_, htail _, htail _⟩⟩
  · exact congrArg (stopTail.andThen k).exec (stop_absorbs _ d)
  · exact congrArg (stopTail.andThen k).exec (stop_absorbs_late _)
  · exact congrArg (stopTail.andThen k).exec (stop_absorbs_late _)

theorem tolerates_rejected (text : String) (d : Device) :
    Tolerates txTimerExpiry (.act (printk text) .done) d := by
  refine ⟨Or.inr ?_, trivial, trivial⟩
  cases h : d.txTimer <;> simp [txTimerExpiry, h, printk, kWorkSubmit]

/-- **Every operation tolerates the timer.** -/
theorem engine_tolerates (op : EngineOp) (d : Device) (h : WellScheduled d)
    (hen : engine.enabled op d = true) :
    Tolerates engine.irq (engine.code op) (engine.entry op d) := by
  cases op with
  | stop => exact tolerates_stop (k := .done) d fun _ _ => trivial
  | work =>
      -- the item was queued, so the timer was not armed
      refine tolerates_of_calm (calm_work ?_)
      change d.schedule.txTimer = none
      have hwork : d.schedule.txWork = true := hen
      cases hseq : d.schedule.activeSeq with
      | none => exact (h.idle hseq).1
      | some seq =>
          have := h.waits seq hseq
          rw [hwork] at this
          simpa using this
  | start seq =>
      show Tolerates txTimerExpiry (txEngineStart seq) d
      cases seq with
      | none => exact tolerates_rejected _ d
      | some seq =>
          rw [txEngineStart]
          split
          · exact tolerates_rejected _ d
          · -- behind the stop the timer stays unarmed up to the last statement
            refine tolerates_stop d fun d hd => ⟨expiry_none hd, expiry_none hd, expiry_none hd,
              expiry_none hd, expiry_none hd,
              calm_andThen (calm_applySymbol hd) ⟨expiry_none ?_, trivial⟩⟩
            rw [schedule_applySymbol]
            exact hd

/-! ## The interleaved engine -/

/-- The work handler goes on to the next symbol in order, or completes a single pass. -/
def Advances (d : Device) : Prop :=
  ∀ seq, d.activeSeq = some seq →
    let s := (atomicStep engine d (.op .work)).schedule
    if seq.currentIndex + 1 < seq.totalSymbols then
      s.activeSeq = some { seq with currentIndex := seq.currentIndex + 1 }
        ∧ s.applied = d.applied ++ [seq.symbol (seq.currentIndex + 1)]
    else if seq.repeats then
      s.activeSeq = some { seq with currentIndex := 0 } ∧ s.applied = d.applied ++ [seq.symbol 0]
    else s.activeSeq = none ∧ s.applied = d.applied

theorem advances {d : Device} (hwork : d.txWork = true) : Advances d := by
  intro seq hseq
  have hs : (atomicStep engine d (.op .work)).schedule
      = workSchedule { d.schedule with txWork := false } := by
    rw [atomicStep, if_pos (by exact hwork)]
    exact schedule_work { d with txWork := false }
  dsimp only
  rw [hs, workSchedule]
  simp only [show d.schedule.activeSeq = some seq from hseq, advance]
  by_cases hlast : seq.currentIndex + 1 ≥ seq.totalSymbols
  · rw [if_pos hlast, if_neg (by omega)]
    cases seq.repeats <;> exact ⟨rfl, rfl⟩
  · rw [if_neg hlast, if_pos (by omega)]
    exact ⟨rfl, rfl⟩

/-- Nothing but the console differs, and the timer may have expired. -/
def Untouched (d d' : Device) : Prop :=
  ∃ out, d' = { d with out } ∨ d' = { d.txTimerExpiry with out }

theorem Untouched.refl (d : Device) : Untouched d d := ⟨d.out, Or.inl rfl⟩

theorem Untouched.printk {d d' : Device} (text : String) (h : Untouched d d') :
    Untouched d (d'.printk text) := by
  obtain ⟨out, rfl | rfl⟩ := h
  · exact ⟨_, Or.inl rfl⟩
  · exact ⟨_, Or.inr rfl⟩

theorem Untouched.expiry {d d' : Device} (h : Untouched d d') :
    Untouched d d'.txTimerExpiry := by
  obtain ⟨out, rfl | rfl⟩ := h <;> refine ⟨out, Or.inr ?_⟩ <;>
    cases ht : d.txTimer <;> simp [txTimerExpiry, ht, kWorkSubmit]

theorem untouched_run {d : Device} {m : Machine Device} {text : String}
    (htodo : m.todo = .done ∨ m.todo = .act (printk text) .done) (h : Untouched d m.state)
    {fs : List (Event EngineOp)} (hfs : ∀ e ∈ fs, e = .exec ∨ e = .irq) :
    Untouched d (run (interleavedStep engine) m fs).state := by
  induction fs generalizing m with
  | nil => exact h
  | cons e fs ih =>
      obtain ⟨he, hrest⟩ := List.forall_mem_cons.mp hfs
      obtain ⟨s, todo⟩ := m
      rcases he with rfl | rfl
      · rcases htodo with rfl | rfl
        · exact ih (Or.inl rfl) h hrest
        · exact ih (Or.inl rfl) (h.printk text) hrest
      · exact ih htodo h.expiry hrest

/-- A start that is given NULL or no symbols. -/
def Rejected (seq : Option TxSequence) : Prop := ∀ s, seq = some s → s.totalSymbols = 0

theorem rejected_code {seq : Option TxSequence} (h : Rejected seq) :
    txEngineStart seq = .act (printk "tx_engine: start failed, seq is NULL or empty\n") .done := by
  cases seq with
  | none => rfl
  | some s => rw [txEngineStart, if_pos (h s rfl)]

/-- The sequence has just been started, and its timer may have expired since. -/
def Starts (seq : TxSequence) (d : Device) : Prop :=
  d.schedule = startSchedule seq ∨ d.schedule = expirySchedule (startSchedule seq)

/-- **An accepted start starts**, wherever the timer expires meanwhile. -/
theorem starts_run {d : Device} (h : WellScheduled d) {seq : TxSequence}
    (hzero : seq.totalSymbols ≠ 0) {fs : List (Event EngineOp)}
    (hfs : ∀ e ∈ fs, e = .exec ∨ e = .irq)
    (hdone : (run (interleavedStep engine) ⟨d, txEngineStart (some seq)⟩ fs).todo = .done) :
    Starts seq (run (interleavedStep engine) ⟨d, txEngineStart (some seq)⟩ fs).state := by
  have htol := engine_tolerates (.start (some seq)) d h rfl
  have hfinish : (run (interleavedStep engine) ⟨d, txEngineStart (some seq)⟩ fs).finish
      = (run (interleavedStep engine) ⟨d, txEngineStart (some seq)⟩ fs).state := by
    rw [Machine.finish, hdone]
    rfl
  rw [← hfinish]
  rcases @run_interrupted _ _ engine ⟨d, txEngineStart (some seq)⟩ htol fs hfs with hsame | hlate
  · rw [hsame]
    exact Or.inl (schedule_start d hzero)
  · -- the timer of the start has expired behind it
    rw [hlate]
    refine Or.inr ((schedule_expiry _).trans ?_)
    rw [show (Machine.finish ⟨d, txEngineStart (some seq)⟩).schedule = startSchedule seq from
      schedule_start d hzero]

/--
**The schedule, whatever the interleaving.**

Whenever no operation is running the schedule invariant holds, and a queued work
item goes on to the next symbol in order or completes a single pass. A start with
NULL or an empty sequence leaves the transmission as it is at every statement, and
any other start has applied the first symbol of its sequence and armed the timer.
-/
theorem engine_schedule {d : Device} (h : d.schedule = initSchedule)
    (es : List (Event EngineOp))
    (hdone : (run (interleavedStep engine) ⟨d, .done⟩ es).todo = .done) :
    let m := run (interleavedStep engine) ⟨d, .done⟩ es
    Scheduled m.state.schedule
      ∧ (m.state.txWork = true → Advances m.state)
      ∧ (∀ seq, Rejected seq → ∀ fs : List (Event EngineOp), (∀ e ∈ fs, e = .exec ∨ e = .irq) →
          Untouched m.state (run (interleavedStep engine) m (.begin (.start seq) :: fs)).state)
      ∧ ∀ seq : TxSequence, seq.totalSymbols ≠ 0 →
        ∀ fs : List (Event EngineOp), (∀ e ∈ fs, e = .exec ∨ e = .irq) →
          let m' := run (interleavedStep engine) m (.begin (.start (some seq)) :: fs)
          m'.todo = .done → Starts seq m'.state := by
  intro m
  have hinit : WellScheduled d := by
    rw [WellScheduled, h]
    exact scheduled_init
  have hsched : WellScheduled m.state :=
    interleaved_invariant engine scheduled_step engine_tolerates hinit es hdone
  have hbegin : ∀ seq, interleavedStep engine m (.begin (.start seq))
      = ⟨m.state, txEngineStart seq⟩ := by
    intro seq
    rw [interleavedStep, show m.todo = .done from hdone]
    rfl
  refine ⟨hsched, advances, fun seq hseq fs hfs => ?_, fun seq hzero fs hfs => ?_⟩
  · rw [run_cons, hbegin]
    exact untouched_run (Or.inr (rejected_code hseq)) (Untouched.refl _) hfs
  · dsimp only
    rw [run_cons, hbegin]
    exact starts_run hsched hzero hfs

/-- A start hit by an expiry, an expiry of its own, a run of the handler, and another start. -/
theorem engine_schedule_repeating :
    let seq : TxSequence :=
      { baseFreqHz := 10136000, symbols := [⟨0, 1000, true⟩, ⟨0, 500, false⟩], totalSymbols := 2
        currentIndex := 0, repeats := true, valid := by decide }
    let d := boot (fun _ => 0) ⟨0, 0, 0, 0, 0, 0⟩ 0 []
    let m := run (interleavedStep engine) ⟨d, .done⟩
      ([.begin (.start (some seq)), .irq] ++ List.replicate 20 .exec
        ++ [.irq, .begin .work] ++ List.replicate 20 .exec)
    Scheduled m.state.schedule ∧ m.state.applied = [⟨0, 1000, true⟩, ⟨0, 500, false⟩]
      ∧ Starts seq (run (interleavedStep engine) m
          (.begin (.start (some seq)) :: List.replicate 20 .exec)).state := by
  intro seq d m
  obtain ⟨hsched, -, -, hstarts⟩ := @engine_schedule d rfl ([.begin (.start (some seq)), .irq]
    ++ List.replicate 20 .exec ++ [.irq, .begin .work] ++ List.replicate 20 .exec) rfl
  refine ⟨hsched, rfl, hstarts seq (by decide) (List.replicate 20 .exec) ?_ rfl⟩
  intro e he
  exact Or.inl (List.eq_of_mem_replicate he)

end Device

end MiniHF
