import MiniHF.Lib.Runs
import MiniHF.Radio.Tps55289Driver
import MiniHF.Radio.Tps55289Proof

/-!
# The regulator of the device is what the driver makes of the chip

The device has a regulator with a use count, an output that is on or off, and a
voltage. On the chip these are the count of the core, one bit of the mode register
and a code in two registers, and every call is a few transfers that may fail. As
long as a write that fails has brought nothing, both do and return the same, whatever
voltages the core refuses.
-/

namespace MiniHF

open Registers Runs I2cChip Tps55289

namespace Tps55289Driver

/-! ## What the calls do -/

theorem regReadByte_eq (d : Tps55289Driver) (reg : UInt8) :
    d.regReadByte reg = (d.next.ret,
      if d.next.ret = 0 ∧ volatile reg = false then d.regs reg else d.next.shown,
      { d with transfers := d.transfers.tail }) := by
  rw [regReadByte, writeReadDt_eq]

theorem regWriteByte_eq (d : Tps55289Driver) (reg value : UInt8) :
    d.regWriteByte reg value = (d.next.ret,
      { d with
        regs := deliver behind d.regs (taken d.next [reg, value])
        transfers := d.transfers.tail }) := by
  rw [regWriteByte, writeDt_eq]

/-- A write that has gone through is there. -/
theorem regWriteByte_sent (d : Tps55289Driver) {reg value : UInt8} (hret : d.next.ret = 0) :
    (d.regWriteByte reg value).2.regs reg = value := by
  rw [regWriteByte_eq, taken, if_pos hret]
  exact write_self d.regs reg value

/-- **Setting a voltage is one message**, with the code in two bytes. -/
theorem setVoltage_sends (d : Tps55289Driver) (cfg : Tps55289Dts) (minUv maxUv : Int32) :
    d.setVoltage cfg minUv maxUv = (d.next.ret,
      { d with toI2cChip := (d.writeDt [regRefLsb,
          (voltageVal cfg.toTps55289Config minUv &&& 0xFF).toUInt8,
          ((voltageVal cfg.toTps55289Config minUv >>> 8) &&& 0x07).toUInt8]).2 }) := by
  obtain ⟨⟨regs, transfers⟩, refcnt⟩ := d
  cases transfers <;> rfl

/-- A write that fails has brought nothing. -/
def Whole (transfers : List Transfer) : Prop := ∀ t ∈ transfers, t.ret ≠ 0 → t.took = 0

theorem Whole.next {chip : I2cChip} (h : Whole chip.transfers) (hret : chip.next.ret ≠ 0) :
    chip.next.took = 0 := by
  obtain ⟨regs, transfers⟩ := chip
  cases transfers with
  | nil => rfl
  | cons t ts => exact h t List.mem_cons_self hret

theorem Whole.tail {transfers : List Transfer} (h : Whole transfers) : Whole transfers.tail :=
  fun t ht => h t (List.mem_of_mem_tail ht)

/-- What a whole write leaves when it fails. -/
theorem writeDt_failed {chip : I2cChip} (h : Whole chip.transfers) {buf : List UInt8}
    (hret : chip.next.ret ≠ 0) : (chip.writeDt buf).2.regs = chip.regs := by
  rw [writeDt_eq]
  dsimp only
  rw [taken, if_neg hret, h.next hret]
  cases buf <;> rfl

/-- **Some bits of a register are set, or nothing is done.** -/
structure Updated (d d' : Tps55289Driver) (ret : Int) (reg value : UInt8) : Prop where
  refcnt : d'.refcnt = d.refcnt
  nonpos : ret ≤ 0
  others : ∀ r, r ≠ reg → d'.regs r = d.regs r
  succeeded : ret = 0 → d'.regs reg = value
  failed : ret < 0 → d'.regs reg = d.regs reg

theorem regUpdateByte_spec {d : Tps55289Driver} (h : Whole d.transfers) {reg : UInt8}
    (hvolatile : volatile reg = false) (mask value : UInt8) :
    Updated d (d.regUpdateByte reg mask value).2 (d.regUpdateByte reg mask value).1 reg
      ((d.regs reg &&& ~~~mask) ||| (value &&& mask)) := by
  rw [regUpdateByte, regReadByte_eq]
  dsimp only
  split
  · next hfail =>
      exact ⟨rfl, d.next.nonpos, fun _ _ => rfl, fun h0 => absurd h0 hfail, fun _ => rfl⟩
  next hread =>
  have hshows : d.next.ret = 0 ∧ volatile reg = false := ⟨not_not.mp hread, hvolatile⟩
  rw [if_pos hshows]
  split
  · next hsame => exact ⟨rfl, Int.le_refl 0, fun _ _ => rfl, fun _ => hsame.symm, fun _ => rfl⟩
  · generalize (d.regs reg &&& ~~~mask) ||| (value &&& mask) = new
    -- the register is written
    let chip : I2cChip := { d.toI2cChip with transfers := d.transfers.tail }
    have hwrite : ({ d with transfers := d.transfers.tail } : Tps55289Driver).regWriteByte reg new
        = ((chip.writeDt [reg, new]).1, { d with toI2cChip := (chip.writeDt [reg, new]).2 }) := rfl
    rw [hwrite]
    refine ⟨rfl, writeDt_nonpos chip [reg, new], fun r hr => ?_, fun h0 => ?_, fun hlt => ?_⟩
    · refine writeDt_outside chip ?_
      rwa [List.length_singleton, span, span, List.mem_singleton]
    · dsimp only at h0 ⊢
      have hwindow := @writeDt_window chip reg [new] (by simp [span]) h0
      exact (List.cons.inj hwindow).1
    · dsimp only at hlt ⊢
      rw [writeDt_eq] at hlt
      rw [writeDt_failed h.tail (show chip.next.ret ≠ 0 from fun h0 => by
        rw [h0] at hlt
        exact absurd hlt (Int.lt_irrefl 0))]

/-- Inside the mask a value is the new one, and outside the old one. -/
theorem update_bits (v w m : UInt8) :
    ((v &&& ~~~m) ||| (w &&& m)) &&& m = w &&& m
      ∧ ((v &&& ~~~m) ||| (w &&& m)) &&& ~~~m = v &&& ~~~m := by
  constructor
  · refine UInt8.toBitVec_inj.mp (BitVec.eq_of_getLsbD_eq fun i hi => ?_)
    simp only [UInt8.toBitVec_and, UInt8.toBitVec_or, UInt8.toBitVec_not, BitVec.getLsbD_and,
      BitVec.getLsbD_or, BitVec.getLsbD_not]
    cases m.toBitVec.getLsbD i <;> simp
  · refine UInt8.toBitVec_inj.mp (BitVec.eq_of_getLsbD_eq fun i hi => ?_)
    simp only [UInt8.toBitVec_and, UInt8.toBitVec_or, UInt8.toBitVec_not, BitVec.getLsbD_and,
      BitVec.getLsbD_or, BitVec.getLsbD_not]
    cases m.toBitVec.getLsbD i <;> simp

end Tps55289Driver

open Tps55289Driver

/-! ## The two regulators -/

/-- The two registers of the reference, for a voltage. -/
def voltageBytes (cfg : Tps55289Dts) (uv : Int32) : List UInt8 :=
  [(voltageVal cfg.toTps55289Config uv &&& 0xFF).toUInt8,
   ((voltageVal cfg.toTps55289Config uv >>> 8) &&& 0x07).toUInt8]

/-- A call that has returned sets the voltage, or leaves it. -/
def noteVoltage (last : Option Int32) : RegulatorCall × Int → Option Int32
  | (.setVoltage uv, ret) => if ret < 0 then last else some uv
  | _ => last

/-- The voltage last set with success. -/
def lastVoltage (returned : List (RegulatorCall × Int)) : Option Int32 :=
  returned.foldl noteVoltage none

theorem lastVoltage_snoc (returned : List (RegulatorCall × Int)) (c : RegulatorCall × Int) :
    lastVoltage (returned ++ [c]) = noteVoltage (lastVoltage returned) c := by
  rw [lastVoltage, List.foldl_append]
  rfl

/-- The registers of the reference. -/
def refRegs : List UInt8 := [0, 1]

/-- The bit that is wanted. -/
def oeBit (on : Bool) : UInt8 := if on then modeOe else 0

/-- The chip and the regulator of the device agree; `rest` is what the chip held in the
beginning. -/
structure Matches (cfg : Tps55289Dts) (rest : UInt8 → UInt8) (s : ChipRun) (t : RegulatorRun) :
    Prop where
  returned : s.returned = t.returned
  refcnt : s.chip.refcnt = t.device.regulator.refcnt
  output : s.chip.regs regMode &&& modeOe = oeBit t.device.regulator.outputOn
  mode : s.chip.regs regMode &&& ~~~modeOe = rest regMode &&& ~~~modeOe
  volts : ∀ uv, lastVoltage t.returned = some uv →
    t.device.regulator.microvolt = uv.toInt ∧ refRegs.map s.chip.regs = voltageBytes cfg uv
  others : ∀ r, r ∉ refRegs → r ≠ regMode → s.chip.regs r = rest r

variable {refuses : Int32 → Int32 → Bool} {cfg : Tps55289Dts} {rest : UInt8 → UInt8} {s : ChipRun}
  {t : RegulatorRun}

/-- A call that is no voltage leaves the voltage. -/
theorem Matches.volts_kept (h : Matches cfg rest s t) {call : RegulatorCall} {ret : Int}
    (hcall : ∀ uv, call ≠ .setVoltage uv) {chip : Tps55289Driver} {microvolt : Int}
    (hmicro : microvolt = t.device.regulator.microvolt)
    (hregs : ∀ r, r ≠ regMode → chip.regs r = s.chip.regs r) (uv : Int32)
    (huv : lastVoltage (t.returned ++ [(call, ret)]) = some uv) :
    microvolt = uv.toInt ∧ refRegs.map chip.regs = voltageBytes cfg uv := by
  rw [lastVoltage_snoc] at huv
  have hlast : lastVoltage t.returned = some uv := by
    cases call with
    | enable => exact huv
    | disable => exact huv
    | setVoltage v => exact absurd rfl (hcall v)
  obtain ⟨hvolt, hbytes⟩ := h.volts uv hlast
  refine ⟨hmicro.trans hvolt, ?_⟩
  rw [← hbytes]
  refine List.map_congr_left fun r hr => hregs r ?_
  rintro rfl
  exact absurd hr (by decide)

/-- The call that switches the output. -/
def switchCall (on : Bool) : RegulatorCall := if on then .enable else .disable

/-- The count at which the driver is called, and the one after. -/
def edge (on : Bool) : Int × Int := if on then (0, 1) else (1, 0)

/-- Either switch on the chip. -/
theorem exec_switch (c : Tps55289Driver) (on : Bool) :
    c.exec refuses cfg (switchCall on) =
      if c.refcnt = (edge on).1 then
        let (ret, c) := c.regUpdateByte regMode modeOe (oeBit on)
        if ret < 0 then (ret, c) else (ret, { c with refcnt := (edge on).2 })
      else (0, { c with refcnt := if on then c.refcnt + 1 else c.refcnt - 1 }) := by
  cases on with
  | true =>
      show c.regulatorEnable = _
      rw [Tps55289Driver.regulatorEnable]
      by_cases hcount : c.refcnt = 0
      · rw [if_pos (show c.refcnt + 1 = 1 by omega), if_pos (show c.refcnt = (edge true).1 from hcount),
          hcount]
        rfl
      · rw [if_neg (show ¬ c.refcnt + 1 = 1 by omega), if_neg (show ¬ c.refcnt = (edge true).1 from hcount)]
        rfl
  | false =>
      show c.regulatorDisable = _
      rw [Tps55289Driver.regulatorDisable]
      by_cases hcount : c.refcnt = 1
      · rw [if_pos (show c.refcnt - 1 = 0 by omega), if_pos (show c.refcnt = (edge false).1 from hcount),
          hcount]
        rfl
      · rw [if_neg (show ¬ c.refcnt - 1 = 0 by omega), if_neg (show ¬ c.refcnt = (edge false).1 from hcount)]
        rfl

/-- Either switch on the device. -/
theorem regulatorCall_switch (d : Device) (on : Bool) (r : Int) :
    ({ d with results := [r] } : Device).regulatorCall (switchCall on) =
      if d.regulator.refcnt = (edge on).1 then
        if r < 0 then (r, { d with results := [] })
        else (r, { d with
          results := []
          regulator := { d.regulator with refcnt := (edge on).2, outputOn := on } })
      else (0, { d with
        results := [r]
        regulator := { d.regulator with
          refcnt := if on then d.regulator.refcnt + 1 else d.regulator.refcnt - 1 } }) := by
  cases on with
  | true =>
      show ({ d with results := [r] } : Device).regulatorEnable = _
      rw [Device.regulatorEnable]
      by_cases hcount : d.regulator.refcnt = 0
      · rw [if_pos (show d.regulator.refcnt + 1 = 1 by omega),
          if_pos (show d.regulator.refcnt = (edge true).1 from hcount), hcount]
        rfl
      · rw [if_neg (show ¬ d.regulator.refcnt + 1 = 1 by omega),
          if_neg (show ¬ d.regulator.refcnt = (edge true).1 from hcount)]
        rfl
  | false =>
      show ({ d with results := [r] } : Device).regulatorDisable = _
      rw [Device.regulatorDisable]
      by_cases hcount : d.regulator.refcnt = 1
      · rw [if_pos (show d.regulator.refcnt - 1 = 0 by omega),
          if_pos (show d.regulator.refcnt = (edge false).1 from hcount), hcount]
        rfl
      · rw [if_neg (show ¬ d.regulator.refcnt - 1 = 0 by omega),
          if_neg (show ¬ d.regulator.refcnt = (edge false).1 from hcount)]
        rfl

/-- **A switch of the output**, on or off. -/
theorem Matches.switch (h : Matches cfg rest s t) {transfers : List Transfer}
    (hwhole : Whole transfers) (on : Bool) :
    ∃ r, Matches cfg rest (chipStep refuses cfg s (switchCall on, transfers))
      (regulatorStep t (switchCall on, r)) := by
  have hcall : ∀ uv, switchCall on ≠ .setVoltage uv := by
    intro uv
    cases on <;> exact fun h => RegulatorCall.noConfusion h
  let c : Tps55289Driver := { s.chip with transfers }
  have hupdate := @regUpdateByte_spec c hwhole regMode (by decide) modeOe (oeBit on)
  obtain ⟨hin, hout⟩ := update_bits (c.regs regMode) (oeBit on) modeOe
  have hvalue : oeBit on &&& modeOe = oeBit on := by
    cases on <;> rfl
  refine ⟨(c.regUpdateByte regMode modeOe (oeBit on)).1, ?_⟩
  rw [chipStep, regulatorStep, regulatorCall_switch]
  dsimp only
  rw [show ({ s.chip with transfers } : Tps55289Driver) = c from rfl, exec_switch]
  by_cases hcount : s.chip.refcnt = (edge on).1
  · have hcount' : t.device.regulator.refcnt = (edge on).1 := h.refcnt.symm.trans hcount
    rw [if_pos (show c.refcnt = (edge on).1 from hcount), if_pos hcount']
    dsimp only
    split
    · next hfail =>
        -- the driver has failed, and nothing has changed
        have hmode := hupdate.failed hfail
        refine ⟨?_, ?_, ?_, ?_, ?_, ?_⟩
        · rw [h.returned]
        · exact hupdate.refcnt.trans h.refcnt
        · rw [hmode]
          exact h.output
        · rw [hmode]
          exact h.mode
        · exact fun uv huv => h.volts_kept hcall rfl hupdate.others uv huv
        · exact fun r hr hne => (hupdate.others r hne).trans (h.others r hr hne)
    · next hdone =>
        have hmode := hupdate.succeeded (Int.le_antisymm hupdate.nonpos (Int.not_lt.mp hdone))
        refine ⟨?_, rfl, ?_, ?_, ?_, ?_⟩
        · rw [h.returned]
        · rw [hmode]
          exact hin.trans hvalue
        · rw [hmode]
          exact hout.trans h.mode
        · exact fun uv huv => h.volts_kept hcall rfl hupdate.others uv huv
        · exact fun r hr hne => (hupdate.others r hne).trans (h.others r hr hne)
  · -- the core only counts
    have hcount' : ¬ t.device.regulator.refcnt = (edge on).1 :=
      fun h' => hcount (h.refcnt.trans h')
    rw [if_neg (show ¬ c.refcnt = (edge on).1 from hcount), if_neg hcount']
    refine ⟨?_, ?_, h.output, h.mode, ?_, h.others⟩
    · rw [h.returned]
    · dsimp only
      rw [show c.refcnt = t.device.regulator.refcnt from h.refcnt]
    · exact fun uv huv => h.volts_kept hcall rfl (fun _ _ => rfl) uv huv

/-- **Setting the voltage.** -/
theorem Matches.setVoltage (h : Matches cfg rest s t) {transfers : List Transfer}
    (hwhole : Whole transfers) (uv : Int32) :
    ∃ r, Matches cfg rest (chipStep refuses cfg s (.setVoltage uv, transfers))
      (regulatorStep t (.setVoltage uv, r)) := by
  let c : Tps55289Driver := { s.chip with transfers }
  by_cases hrefused : refuses uv uv = true
  · -- the core refuses, and neither has changed
    have hcore : c.exec refuses cfg (.setVoltage uv) = (-22, c) := if_pos hrefused
    have hneg : (-22 : Int) < 0 := by decide
    refine ⟨-22, ?_⟩
    rw [chipStep, regulatorStep]
    dsimp only
    rw [show ({ s.chip with transfers } : Tps55289Driver) = c from rfl, hcore, Device.regulatorCall,
      Device.regulatorSetVoltage, Device.result]
    dsimp only
    rw [if_pos hneg]
    refine ⟨?_, h.refcnt, h.output, h.mode, fun v hv => ?_, h.others⟩
    · rw [h.returned]
    · rw [lastVoltage_snoc, noteVoltage, if_pos hneg] at hv
      exact h.volts v hv
  let buf := regRefLsb :: voltageBytes cfg uv
  have hsends : c.exec refuses cfg (.setVoltage uv)
      = (c.next.ret, { c with toI2cChip := (c.writeDt buf).2 }) :=
    (if_neg hrefused).trans (setVoltage_sends c cfg uv uv)
  have hother : ∀ r, r ∉ refRegs → (c.writeDt buf).2.regs r = s.chip.regs r :=
    fun r hr => writeDt_outside c.toI2cChip hr
  have hmode : (c.writeDt buf).2.regs regMode = s.chip.regs regMode := hother regMode (by decide)
  refine ⟨c.next.ret, ?_⟩
  rw [chipStep, regulatorStep]
  dsimp only
  rw [show ({ s.chip with transfers } : Tps55289Driver) = c from rfl, hsends, Device.regulatorCall,
    Device.regulatorSetVoltage, Device.result]
  dsimp only
  split
  · next hfail =>
      have hsame : (c.writeDt buf).2.regs = s.chip.regs :=
        @writeDt_failed c.toI2cChip hwhole buf (fun h0 => by
          rw [h0] at hfail
          exact absurd hfail (Int.lt_irrefl 0))
      refine ⟨?_, h.refcnt, ?_, ?_, fun v hv => ?_, ?_⟩
      · rw [h.returned]
      · rw [hsame]
        exact h.output
      · rw [hsame]
        exact h.mode
      · rw [lastVoltage_snoc, noteVoltage, if_pos hfail] at hv
        rw [hsame]
        exact h.volts v hv
      · rw [hsame]
        exact h.others
  · next hdone =>
      refine ⟨?_, h.refcnt, ?_, ?_, fun v hv => ?_, fun r hr hne => ?_⟩
      · rw [h.returned]
      · rw [hmode]
        exact h.output
      · rw [hmode]
        exact h.mode
      · rw [lastVoltage_snoc, noteVoltage, if_neg hdone] at hv
        obtain rfl : uv = v := Option.some.inj hv
        have hret : (c.writeDt buf).1 = 0 := by
          rw [writeDt_eq]
          exact Int.le_antisymm c.next.nonpos (Int.not_lt.mp hdone)
        exact ⟨rfl, @writeDt_window c.toI2cChip regRefLsb (voltageBytes cfg uv)
          (show (span behind regRefLsb 2).Nodup by decide) hret⟩
      · rw [hother r hr]
        exact h.others r hr hne

/-- A call. -/
theorem Matches.call (h : Matches cfg rest s t) (e : RegulatorCall × List Transfer)
    (hwhole : Whole e.2) :
    ∃ r, Matches cfg rest (chipStep refuses cfg s e) (regulatorStep t (e.1, r)) := by
  obtain ⟨call, transfers⟩ := e
  cases call with
  | enable => exact h.switch hwhole true
  | disable => exact h.switch hwhole false
  | setVoltage uv => exact h.setVoltage hwhole uv

/-! ## From the init on -/

/-- **The init switches the output off**, if the last of its writes goes through. -/
theorem init_off (chip : Tps55289Driver) (cfg : Tps55289Dts)
    (hlast : (chip.transfers.tail.tail.headD .done).ret = 0) :
    (chip.init cfg true).1 = 0 ∧ (chip.init cfg true).2.refcnt = chip.refcnt
      ∧ (chip.init cfg true).2.regs regMode &&& modeOe = 0 := by
  rw [Tps55289Driver.init, if_neg (by decide)]
  dsimp only
  generalize (if cfg.externalFb then fsFbSel else 0) ||| (cfg.intFbRatio &&& 0x03) = fsVal
  generalize (if cfg.slewRateMvUs ≥ 10000 then (3 : UInt8) else if cfg.slewRateMvUs ≥ 5000 then 2
    else if cfg.slewRateMvUs ≥ 2500 then 1 else 0) = srBits
  refine ⟨rfl, ?_, ?_⟩
  · rw [regWriteByte_eq, regWriteByte_eq, regWriteByte_eq]
  · have hthird : ((chip.regWriteByte regVoutFs fsVal).2.regWriteByte regVoutSr srBits).2.next.ret
        = 0 := by
      rw [regWriteByte_eq, regWriteByte_eq]
      exact hlast
    rw [regWriteByte_sent _ hthird]
    cases cfg.discharge <;> rfl

/--
**The regulator of the device is what the driver makes of the chip.**

After an init that has switched the output off, over every run of enables, disables and
voltages, whatever voltages the core refuses, as long as a write that fails has brought
nothing: there is a choice of what the driver calls return, and the core where it refuses,
with which the regulator of the device is called alike and returns alike, has the same use
count and is on exactly if the chip's output is enabled; the chip's reference is the code of
the voltage last set with success, which the device remembers; and nothing else on the chip
has changed.
-/
theorem regulator_refines (refuses : Int32 → Int32 → Bool) {chip : Tps55289Driver} {device : Device}
    (hlast : (chip.transfers.tail.tail.headD .done).ret = 0)
    (hunused : chip.refcnt = device.regulator.refcnt) (hoff : device.regulator.outputOn = false)
    {es : List (RegulatorCall × List Transfer)} (hwhole : ∀ e ∈ es, Whole e.2) :
    let up := (chip.init cfg true).2
    ∃ rs, Matches cfg up.regs (run (chipStep refuses cfg) ⟨[], up⟩ es)
      (run regulatorStep ⟨[], device⟩ rs) := by
  intro up
  obtain ⟨-, hcount, hclear⟩ := init_off chip cfg hlast
  have hstart : Matches cfg up.regs ⟨[], up⟩ ⟨[], device⟩ := by
    refine ⟨rfl, hcount.trans hunused, ?_, rfl, ?_, fun _ _ _ => rfl⟩
    · rw [hoff]
      exact hclear
    · intro uv huv
      cases huv
  refine run_simulates (fun s t e h he => ?_) hstart (along_of_forall _ hwhole)
  obtain ⟨r, hr⟩ := @Matches.call refuses cfg up.regs s t h e he
  exact ⟨[(e.1, r)], hr⟩

/-- The device before `main`. -/
def quietDevice : Device :=
  { Device.boot (fun _ => 0) ⟨126, 6, 4, 12, 30, 59⟩ 0 [] with
    regulator := { refcnt := 0, outputOn := false, microvolt := 0 } }

/-- What `main` does, three enables of which the driver fails one, and 12 V: the core takes no
voltage below 5 V. -/
theorem regulator_refines_main :
    ∃ rs, (run regulatorStep ⟨[], quietDevice⟩ rs).returned
        = [(.setVoltage 1200000, -22), (.disable, 0), (.enable, 0), (.enable, -5), (.enable, 0),
          (.setVoltage 12000000, 0)]
      ∧ (run regulatorStep ⟨[], quietDevice⟩ rs).device.regulator = ⟨1, true, 12000000⟩ := by
  let refuses : Int32 → Int32 → Bool := fun minUv _ => minUv < 5000000
  let dts : Tps55289Dts := ⟨⟨true, 274000, 100000, 0, 0⟩, 2500, false⟩
  let chip : Tps55289Driver := { regs _ := 0xFF, transfers := [], refcnt := 0 }
  let es : List (RegulatorCall × List Transfer) :=
    [(.setVoltage 1200000, []), (.disable, []), (.enable, []), (.enable, [⟨-5, 0, 0, by decide⟩]),
      (.enable, []), (.setVoltage 12000000, [])]
  have hwhole : ∀ e ∈ es, Whole e.2 := by
    intro e he t ht
    have htransfers : e.2 = [] ∨ e.2 = [⟨-5, 0, 0, by decide⟩] := by
      simp only [es, List.mem_cons, List.not_mem_nil, or_false] at he
      rcases he with rfl | rfl | rfl | rfl | rfl | rfl
      all_goals simp
    rcases htransfers with hnone | hfails
    · rw [hnone] at ht
      cases ht
    · rw [hfails] at ht
      rw [List.mem_singleton.mp ht]
      exact fun _ => rfl
  obtain ⟨rs, h⟩ := @regulator_refines dts refuses chip quietDevice rfl rfl rfl es hwhole
  generalize hend : run (chipStep refuses dts) ⟨[], (chip.init dts true).2⟩ es = s at h
  have hreturned : s.returned = [(.setVoltage 1200000, -22), (.disable, 0), (.enable, 0),
      (.enable, -5), (.enable, 0), (.setVoltage 12000000, 0)] := by
    rw [← hend]
    decide +kernel
  have hcount : s.chip.refcnt = 1 := by
    rw [← hend]
    decide +kernel
  have hbit : s.chip.regs regMode &&& modeOe = modeOe := by
    rw [← hend]
    decide +kernel
  refine ⟨rs, h.returned.symm.trans hreturned, ?_⟩
  have hlast := (h.volts 12000000 (by rw [← h.returned, hreturned]; rfl)).1
  have hout := h.output
  have hrefcnt := h.refcnt
  rw [hbit] at hout
  rw [hcount] at hrefcnt
  generalize (run regulatorStep ⟨[], quietDevice⟩ rs).device.regulator = regulator at *
  obtain ⟨refcnt, outputOn, microvolt⟩ := regulator
  dsimp only at hlast hout hrefcnt
  rw [hlast, ← hrefcnt]
  cases outputOn with
  | true => rfl
  | false => exact absurd hout (by decide)

end MiniHF
