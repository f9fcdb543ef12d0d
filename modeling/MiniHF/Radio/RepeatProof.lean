import MiniHF.Radio.ScheduleProof

/-!
# The passes of a repeating sequence

What the engine has applied is the sequence over and over, so it can be cut into
passes: in front of each there are copies of the symbols, and on it the symbols
themselves. A sequence that repeats is played for as long as one likes.
-/

namespace MiniHF.Device

open Interrupts Interrupts.Code Runs

/-! ## Cutting what was applied -/

/-- The symbols of a sequence with nothing behind the last one. -/
theorem symbols_eq {seq : TxSequence} (h : seq.totalSymbols = seq.symbols.length) :
    (List.range seq.totalSymbols).map seq.symbol = seq.symbols := by
  apply List.ext_getElem
  · rw [List.length_map, List.length_range, h]
  · intro i _ hi
    rw [List.getElem_map, List.getElem_range, TxSequence.symbol, List.getD_eq_getElem?_getD,
      List.getElem?_eq_getElem hi, Option.getD_some]

theorem played_length (seq : TxSequence) (n : Nat) : (played seq n).length = n := by
  rw [played, List.length_map, List.length_range]

/-- Behind whole passes the sequence starts again. -/
theorem played_add (seq : TxSequence) (j m : Nat) :
    played seq (j * seq.totalSymbols + m) = played seq (j * seq.totalSymbols) ++ played seq m := by
  unfold played
  rw [List.range_add, List.map_append, List.map_map]
  congr 1
  apply List.map_congr_left
  intro i _
  show seq.symbol ((j * seq.totalSymbols + i) % seq.totalSymbols) = _
  rw [Nat.mul_add_mod_self_right]

/-- A pass. -/
theorem played_total {seq : TxSequence} (h : seq.totalSymbols = seq.symbols.length) :
    played seq seq.totalSymbols = seq.symbols := by
  have hmod : played seq seq.totalSymbols = (List.range seq.totalSymbols).map seq.symbol := by
    apply List.map_congr_left
    intro i hi
    rw [Nat.mod_eq_of_lt (List.mem_range.mp hi)]
  rw [hmod, symbols_eq h]

/-- Passes are copies. -/
theorem played_passes {seq : TxSequence} (h : seq.totalSymbols = seq.symbols.length) (j : Nat) :
    played seq (j * seq.totalSymbols) = (List.replicate j seq.symbols).flatten := by
  induction j with
  | zero => rw [Nat.zero_mul]; rfl
  | succ j ih =>
      rw [Nat.succ_mul, played_add, ih, played_total h, List.replicate_succ', List.flatten_append,
        List.flatten_singleton]

/-- **In front of a pass there are copies of the symbols, and on it the symbols.** -/
theorem played_pass {seq : TxSequence} (h : seq.totalSymbols = seq.symbols.length) {j n : Nat}
    (hle : (j + 1) * seq.totalSymbols ≤ n) :
    (played seq n).take (j * seq.totalSymbols) = (List.replicate j seq.symbols).flatten ∧
      ((played seq n).drop (j * seq.totalSymbols)).take seq.totalSymbols = seq.symbols := by
  obtain ⟨rest, rfl⟩ := Nat.exists_eq_add_of_le hle
  have hfront : (played seq (j * seq.totalSymbols)).length = j * seq.totalSymbols :=
    played_length _ _
  have hpass : seq.symbols.length = seq.totalSymbols := h.symm
  rw [played_add, Nat.succ_mul, played_add, played_total h, List.append_assoc]
  constructor
  · rw [List.take_left' hfront, played_passes h]
  · rw [List.drop_left' hfront, List.take_left' hpass]

/-! ## What was started -/

/-- What was started has symbols. -/
def StartedSymbols (d : Device) : Prop := ∀ orig, d.started = some orig → orig.totalSymbols ≠ 0

theorem startedSymbols_step (d : Device) (e : AtomicEvent EngineOp) (h : StartedSymbols d) :
    StartedSymbols (atomicStep engine d e) := by
  have hkeeps : (atomicStep engine d e).schedule.started = d.schedule.started →
      StartedSymbols (atomicStep engine d e) := by
    intro hsame orig horig
    exact h orig (hsame.symm.trans horig)
  rcases schedule_atomicStep d e with hs | hs | hs | ⟨_, hs⟩ | ⟨seq, hzero, hs⟩
  · apply hkeeps
    rw [hs]
  · apply hkeeps
    rw [hs, expirySchedule]
    split <;> rfl
  · apply hkeeps
    rw [hs, schedule_stop]
  · apply hkeeps
    rw [hs, workSchedule]
    split
    · rfl
    · split <;> rfl
  · intro orig horig
    have hstarted := congrArg Schedule.started hs
    have hsame : some seq = some orig := hstarted.symm.trans horig
    rwa [← Option.some.inj hsame]

/-- **What the engine has applied**, whenever no operation is running. -/
theorem applied_eq {d : Device} (h : d.schedule = initSchedule) (es : List (Event EngineOp))
    (hdone : (run (interleavedStep engine) ⟨d, .done⟩ es).todo = .done) {orig : TxSequence}
    (horig : (run (interleavedStep engine) ⟨d, .done⟩ es).state.started = some orig) :
    let applied := (run (interleavedStep engine) ⟨d, .done⟩ es).state.applied
    orig.totalSymbols ≠ 0 ∧ applied = played orig applied.length := by
  have hinit : WellScheduled d ∧ StartedSymbols d := by
    constructor
    · rw [WellScheduled, h]
      exact scheduled_init
    · intro orig horig
      have hnone : d.started = none := congrArg Schedule.started h
      rw [hnone] at horig
      cases horig
  obtain ⟨hsched, hstarted⟩ := @interleaved_invariant _ _ engine
    (fun d => WellScheduled d ∧ StartedSymbols d)
    (fun d e hd => ⟨scheduled_step d e hd.1, startedSymbols_step d e hd.2⟩)
    (fun op d hd hen => engine_tolerates op d hd.1 hen) d hinit es hdone
  exact ⟨hstarted orig horig, (hsched.order orig horig).2.1⟩

/-! ## Playing on -/

/-- A repeating sequence is played, its timer is armed, and `n` symbols were applied. -/
structure OnAir (orig : TxSequence) (n : Nat) (s : Schedule) : Prop where
  started : s.started = some orig
  count : s.applied.length = n
  sequence : ∃ seq, s.activeSeq = some seq ∧ seq.repeats = true
  armed : s.txTimer.isSome = true

theorem onAir_start (d : Device) {orig : TxSequence} (hzero : orig.totalSymbols ≠ 0)
    (hrepeats : orig.repeats = true) :
    OnAir orig 1 (atomicStep engine d (.op (.start (some orig)))).schedule := by
  show OnAir orig 1 ((txEngineStart (some orig)).exec d).schedule
  rw [schedule_start d hzero]
  exact ⟨rfl, rfl, ⟨_, rfl, hrepeats⟩, rfl⟩

/-- An expiry and a run of the work handler bring the next symbol. -/
theorem OnAir.next {orig : TxSequence} {n : Nat} {d : Device} (h : OnAir orig n d.schedule) :
    OnAir orig (n + 1) (run (atomicStep engine) d [.irq, .op .work]).schedule := by
  obtain ⟨t, ht⟩ := Option.isSome_iff_exists.mp h.armed
  obtain ⟨seq, hseq, hrepeats⟩ := h.sequence
  have hexpired : d.txTimerExpiry.schedule
      = { d.schedule with txTimer := none, txWork := true, expiries := d.schedule.expiries + 1 } := by
    rw [schedule_expiry, expirySchedule, ht]
  have hqueued : d.txTimerExpiry.txWork = true := congrArg Schedule.txWork hexpired
  have hwork : (run (atomicStep engine) d [.irq, .op .work]).schedule
      = workSchedule { d.txTimerExpiry.schedule with txWork := false } := by
    show (atomicStep engine d.txTimerExpiry (.op .work)).schedule = _
    rw [atomicStep, if_pos (by exact hqueued)]
    exact schedule_work { d.txTimerExpiry with txWork := false }
  -- behind the last symbol a repeating sequence goes on with the first one
  have hon : ∃ seq', advance seq = some seq' ∧ seq'.repeats = true := by
    unfold advance
    rw [if_pos hrepeats]
    split <;> exact ⟨_, rfl, hrepeats⟩
  obtain ⟨seq', hadvance, hrepeats'⟩ := hon
  rw [hwork, hexpired, workSchedule]
  dsimp only
  rw [hseq]
  dsimp only
  rw [hadvance]
  exact ⟨h.started, by simp [h.count], ⟨seq', rfl, hrepeats'⟩, rfl⟩

/-- **A sequence that repeats is played for as long as one likes.** -/
theorem plays_on (d : Device) {orig : TxSequence} (hzero : orig.totalSymbols ≠ 0)
    (hrepeats : orig.repeats = true) (n : Nat) :
    ∃ es : List (Event EngineOp), (run (interleavedStep engine) ⟨d, .done⟩ es).todo = .done ∧
      (run (interleavedStep engine) ⟨d, .done⟩ es).state.started = some orig ∧
      (run (interleavedStep engine) ⟨d, .done⟩ es).state.applied.length = n + 1 := by
  have hatomic : ∃ as, OnAir orig (n + 1) (run (atomicStep engine) d as).schedule := by
    induction n with
    | zero => exact ⟨[.op (.start (some orig))], onAir_start d hzero hrepeats⟩
    | succ n ih =>
        obtain ⟨as, has⟩ := ih
        refine ⟨as ++ [.irq, .op .work], ?_⟩
        rw [run_append]
        exact has.next
  obtain ⟨as, has⟩ := hatomic
  obtain ⟨es, hes⟩ := atomic_refines_interleaved engine d as
  refine ⟨es, ?_⟩
  rw [hes]
  exact ⟨rfl, has.started, has.count⟩

end MiniHF.Device
