import MiniHF.Lib.Runs
import MiniHF.Radio.RegulatorProof
import MiniHF.Radio.TruthProof

/-!
# Regulator commands over a run

The command 0x05 is absolute, on or off, but the regulator core counts uses: a
second "on" asks for a second "off". The invariant is that the output is on
exactly while the count is positive, so whether a command is followed depends on
the count it meets. What 0x05 sets cannot be read back by 0x06 at all, since
`tps55289_api` has no `get_voltage`.
-/

namespace MiniHF

open Runs

namespace Device

/-- A regulator command: 0x05 or 0x06. -/
inductive RegulatorCmd where
  | set (payload : List UInt8) (id : UInt16)
  | get (payload : List UInt8) (id : UInt16)

/-- The packet of a command. -/
def RegulatorCmd.packet : RegulatorCmd → Packet
  | .set payload id => { type := 0x05, id, payload }
  | .get payload id => { type := 0x06, id, payload }

/-- The device handles a regulator command. -/
def regulatorStep (d : Device) (c : RegulatorCmd) : Device := d.dispatch c.packet

/-- The reply to a 0x06 command is the state byte of a 0x05 command: its bit 7 and its level. -/
def ReadsBack (state : UInt8) (d : Device) : Prop :=
  ∀ payload id, { type := 0x06, id, payload := [state &&& 0x9F] }
    ∈ replies (outputSince d (regulatorStep d (.get payload id)))

/-- After an ACK the output is as the command asked. -/
def OutputFollows (d : Device) : RegulatorCmd → Prop
  | .set payload id => Replied 0xFF d (regulatorStep d (.set payload id)) →
      ∀ state ∈ payload.head?, (regulatorStep d (.set payload id)).regulator.outputOn
        = requestedOn state
  | .get _ _ => True

/-- After an ACK what was set can be read back, if the voltage was set. -/
def SettingReadsBack (d : Device) : RegulatorCmd → Prop
  | .set payload id => Replied 0xFF d (regulatorStep d (.set payload id)) →
      0 ≤ d.supply.returns 0 →
      ∀ state ∈ payload.head?, ReadsBack state (regulatorStep d (.set payload id))
  | .get _ _ => True

/--
The use count allows the switch: an "on" meets a positive count, or 0 and a driver
that obeys; an "off" meets a count of 0 or less, or 1 and a driver that obeys. The
first result belongs to the voltage.
-/
def countAllows (d : Device) : RegulatorCmd → Prop
  | .set payload _ => ∀ state ∈ payload.head?,
      if d.supply.calls (requestedOn state) then 0 ≤ d.supply.returns 1
      else requestedOn state = decide (1 ≤ d.regulator.refcnt)
  | .get _ _ => True

/-- The command sets no voltage. -/
def voltageRefused (d : Device) : RegulatorCmd → Prop
  | .set payload _ => payload ≠ [] → d.supply.returns 0 < 0
  | .get _ _ => True

/-- The output is on exactly while the use count is positive. -/
def Counted (s : Supply) : Prop := s.regulator.outputOn = decide (1 ≤ s.regulator.refcnt)

theorem counted_switch {s : Supply} (h : Counted s) (on : Bool) : Counted (s.switch on) := by
  rw [Counted, Supply.switch]
  by_cases hcall : s.calls on
  · rw [if_pos hcall]
    split
    · exact h
    · cases on <;> rfl
  · rw [if_neg hcall]
    rw [Counted] at h
    dsimp only
    rw [h, decide_eq_decide]
    rw [Supply.calls] at hcall
    cases on <;> simp only [if_true, Bool.false_eq_true, if_false] at hcall ⊢ <;> omega

theorem step_set (payload : List UInt8) (id : UInt16) (d : Device) :
    regulatorStep d (.set payload id) = handleSetBuckBoostRegulator payload id d := rfl

theorem step_set_nil (id : UInt16) (d : Device) : regulatorStep d (.set [] id) = d.sendNack id := by
  rw [step_set, handleSetBuckBoostRegulator_eq]

/-- The driver table has no `get_voltage`, so every 0x06 is refused. -/
theorem step_get (payload : List UInt8) (id : UInt16) (d : Device) :
    regulatorStep d (.get payload id) = d.sendNack id := rfl

/-- The supply behind the call that sets the voltage, and the switch from there. -/
theorem supply_set (state : UInt8) (rest : List UInt8) (id : UInt16) (d : Device) :
    ∃ s : Supply, (regulatorStep d (.set (state :: rest) id)).supply = s.switch (requestedOn state)
      ∧ s.results = d.results.drop 1 ∧ s.regulator.refcnt = d.regulator.refcnt
      ∧ s.regulator.outputOn = d.regulator.outputOn := by
  rw [step_set, handleSetBuckBoostRegulator_eq]
  dsimp only
  rw [supply_sendAck, supply_regulatorSwitch]
  refine ⟨_, rfl, ?_⟩
  rw [supply_regulatorSetVoltage]
  split <;> exact ⟨rfl, rfl, rfl⟩

theorem counted_step {d : Device} (h : Counted d.supply) (c : RegulatorCmd) :
    Counted (regulatorStep d c).supply := by
  cases c with
  | get payload id =>
      rw [step_get]
      exact h
  | set payload id =>
      cases payload with
      | nil =>
          rw [step_set_nil]
          exact h
      | cons state rest =>
          obtain ⟨s, hs, _, hcount, hon⟩ := supply_set state rest id d
          have hcounted : Counted s := by
            rw [Counted, hon, hcount]
            exact h
          rw [hs]
          exact counted_switch hcounted _

/-! ## One 0x05 command -/

/-- Every 0x05 command with a state byte is ACKed. -/
theorem replied_set (state : UInt8) (rest : List UInt8) (id : UInt16) (d : Device) :
    Replied 0xFF d (regulatorStep d (.set (state :: rest) id)) := by
  have hout : (regulatorStep d (.set (state :: rest) id)).out
      = d.out ++ ([] ++ [.packet { type := 0xFF, id, payload := [] }]) := by
    rw [step_set, handleSetBuckBoostRegulator_eq]
    dsimp only
    rw [out_sendAck, out_regulatorSwitch, out_regulatorSetVoltage, List.nil_append]
  exact (replied_iff hout rfl (by simp)).mpr rfl

/-- **The output follows a command exactly where the count allows it.** -/
theorem outputFollows_iff {d : Device} (h : Counted d.supply) (c : RegulatorCmd) :
    OutputFollows d c ↔ countAllows d c := by
  cases c with
  | get payload id => exact Iff.rfl
  | set payload id =>
      cases payload with
      | nil => simp [OutputFollows, countAllows]
      | cons state rest =>
          obtain ⟨s, hs, hres, hcount, hon⟩ := supply_set state rest id d
          have hreg := congrArg Supply.regulator hs
          dsimp only [supply] at hreg
          have hcalls : s.calls (requestedOn state) ↔ d.supply.calls (requestedOn state) := by
            rw [Supply.calls, Supply.calls, hcount]
            rfl
          have hreturns : s.returns 0 = d.supply.returns 1 := by
            rw [Supply.returns, hres]
            exact Supply.returns_skip d.supply 1 0
          have hcounted : s.regulator.outputOn = decide (1 ≤ s.regulator.refcnt) := by
            rw [hon, hcount]
            exact h
          simp only [OutputFollows, countAllows, replied_set, List.head?_cons, Option.mem_some_iff,
            forall_eq', forall_const, hreg]
          rw [Supply.switch, ← hreturns, ← hcount]
          by_cases hcall : s.calls (requestedOn state)
          · -- the driver is called: before the call the output is the other way
            have hother : s.regulator.outputOn = !requestedOn state := by
              rw [hcounted, show s.regulator.refcnt = _ from hcall]
              cases requestedOn state <;> rfl
            rw [if_pos hcall, if_pos (hcalls.mp hcall)]
            split
            · rename_i hfail
              show s.regulator.outputOn = requestedOn state ↔ _
              rw [hother]
              refine iff_of_false ?_ (by omega)
              cases requestedOn state <;> simp
            · rename_i hdone
              exact iff_of_true rfl (by omega)
          · rw [if_neg hcall, if_neg (fun hc => hcall (hcalls.mpr hc))]
            dsimp only
            rw [hcounted]
            exact eq_comm

/-- What cannot be read back is what was set. -/
theorem settingReadsBack_iff (d : Device) (c : RegulatorCmd) :
    SettingReadsBack d c ↔ voltageRefused d c := by
  cases c with
  | get payload id => exact Iff.rfl
  | set payload id =>
      cases payload with
      | nil => simp [SettingReadsBack, voltageRefused]
      | cons state rest =>
          have hnever : ∀ d', ¬ ReadsBack state d' := by
            intro d' h
            have hmem := h [] 0
            rw [step_get, outputSince, out_sendNack, List.drop_left] at hmem
            simp [replies] at hmem
          simp only [SettingReadsBack, voltageRefused, replied_set, List.head?_cons,
            Option.mem_some_iff, forall_eq', hnever, forall_const, ne_eq, reduceCtorEq,
            not_false_eq_true]
          exact Int.not_le

/--
**The regulator follows its commands exactly as long as the count allows it and
nothing is set that could be read back.**

Over every run of regulator commands from a regulator that is off and unused,
whatever the drivers return: the output is as every ACKed 0x05 command asked if and
only if each meets a count that allows it; and 0x06 gives back what was set only
where no voltage was.
-/
theorem regulator_commands {d : Device} (hoff : d.regulator.outputOn = false)
    (hunused : d.regulator.refcnt = 0) (cs : List RegulatorCmd) :
    (Along regulatorStep (fun d c => OutputFollows d c ∧ SettingReadsBack d c) d cs
        ↔ Along regulatorStep (fun d c => countAllows d c ∧ voltageRefused d c) d cs)
      ∧ (Along regulatorStep OutputFollows d cs ↔ Along regulatorStep countAllows d cs) := by
  have hinit : Counted d.supply := by
    rw [Counted]
    show d.regulator.outputOn = decide (1 ≤ d.regulator.refcnt)
    rw [hoff, hunused]
    rfl
  constructor
  · exact along_congr (J := fun d => Counted d.supply) (fun d c h => counted_step h c)
      (fun d c h => and_congr (outputFollows_iff h c) (settingReadsBack_iff d c)) hinit cs
  · exact along_congr (J := fun d => Counted d.supply) (fun d c h => counted_step h c)
      (fun d c h => outputFollows_iff h c) hinit cs

/-- Twice on, once off: the output stays on. And the level of the first is not read back. -/
theorem regulator_commands_twice :
    let on := RegulatorCmd.set [0x8C] 1
    let off := RegulatorCmd.set [0x0C] 2
    idleDevice.regulator = { refcnt := 0, outputOn := false, microvolt := 0 }
      ∧ (run regulatorStep idleDevice [on, on, off]).regulator.outputOn = true
      ∧ ¬ Along regulatorStep OutputFollows idleDevice [on, on, off]
      ∧ (run regulatorStep idleDevice [on]).regulator.microvolt = 12000000
      ∧ ¬ SettingReadsBack idleDevice on := by
  intro on off
  have hinit : Counted idleDevice.supply := rfl
  have hcounted : Counted (run regulatorStep idleDevice [on, on]).supply :=
    counted_step (counted_step hinit on) on
  refine ⟨rfl, by decide +kernel, fun h => ?_, by decide +kernel, fun h => ?_⟩
  · have hallows := (outputFollows_iff hcounted off).mp h.2.2.1
    exact absurd (hallows 0x0C rfl) (by decide +kernel)
  · have hrefused := (settingReadsBack_iff idleDevice on).mp h
    exact absurd (hrefused (by simp)) (by decide +kernel)

/-- Once on and once off: the output follows. -/
theorem regulator_commands_once :
    Along regulatorStep OutputFollows idleDevice
      [.set [0x8C] 1, .get [] 2, .set [0x0C] 3] := by
  refine (regulator_commands (d := idleDevice) rfl rfl _).2.mpr ⟨?_, trivial, ?_, trivial⟩
  · intro state hstate
    obtain rfl : 0x8C = state := Option.some.inj hstate
    decide +kernel
  · intro state hstate
    obtain rfl : 0x0C = state := Option.some.inj hstate
    decide +kernel

end Device

end MiniHF
