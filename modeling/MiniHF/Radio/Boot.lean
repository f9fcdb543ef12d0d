import MiniHF.Radio.RadioCmd
import MiniHF.Radio.Si5351aDriver

/-!
# `main.c`, up to its loop and round by round

`main` sets up one device after another. Where one is not ready it looks again for some
seconds; without the clock generator, the clock or the relays it gives up, without the
regulator or the display it goes on. All it says goes out as debug messages. `main` runs
on its own here: no command comes in before it is in its loop.
-/

namespace MiniHF

/-- What `device_is_ready` and its kin say, look by look, and what the display returns. -/
structure Surroundings where
  si5351aReady : Nat → Bool
  regulatorReady : Nat → Bool
  rtcReady : Nat → Bool
  oledReady : Nat → Bool
  /-- `gpio_is_ready_dt(&tr_fwd)`. -/
  trFwdReady : Bool
  /-- `gpio_is_ready_dt(&tr_bwd)`. -/
  trBwdReady : Bool
  framebufferInit : Int
  framebufferSetFont : Int
  blankingOff : Int

/-- What `main` works on: the clock generator and everything else. -/
structure Rig where
  clock : Si5351aDriver
  device : Device
  oledInitialized : Bool

namespace Rig

/-- Before `main`: the drivers have been initialised, and nothing has been called yet. -/
def powered (clock : Si5351aDriver) (rtcTime : RtcTime) (trFwd trBwd : Bool) (microvolt : Int)
    (results : List Int) : Rig where
  clock
  device := {
    baseFrequency := 10136000 * 100
    txActive := false
    trFwd, trBwd
    activeSeq := none
    engineActive := false
    txTimer := none
    txWork := false
    regulator := { refcnt := 0, outputOn := false, microvolt }
    si5351aRegs := clock.regs
    rtcTime, results
    out := []
    started := none
    applied := []
    expiries := 0 }
  oledInitialized := false

/-- `debug_printf`. -/
def debugPrintf (text : String) (m : Rig) : Rig :=
  { m with device := m.device.sendDebugMessage text }

/-! ## Waiting -/

/-- `REGULATOR_TRY_COUNT`. -/
def regulatorTryCount : Nat := 5

/-- `SI5351A_TRY_COUNT`. -/
def si5351aTryCount : Nat := 5

/-- `RTC_TRY_COUNT`. -/
def rtcTryCount : Nat := 5

/-- `OLED_TRY_COUNT`. -/
def oledTryCount : Nat := 1

/-- A loop that waits for a device, at `tries` and with `left` more; the texts are those of its
`debug_printf`. -/
def awaitReady (ready : Nat → Bool) (waiting : Nat → String) (notReady : String) (tries : Nat) :
    Nat → Rig → Bool × Rig
  | left, m =>
      if ready tries then (true, m)
      else
        let m := m.debugPrintf (waiting (tries + 1))
        match left with
        | 0 => (false, m.debugPrintf notReady)
        | left + 1 => awaitReady ready waiting notReady (tries + 1) left m

/-- `attempt %d/%d`. -/
def fmtAttempt (what : String) (count attempt : Nat) : String :=
  what ++ " (attempt " ++ toString attempt ++ "/" ++ toString count ++ ")"

/-- `not ready after %d attempts`. -/
def fmtNotReady (what : String) (count : Nat) : String :=
  what ++ " not ready after " ++ toString count ++ " attempts"

/-! ## One device after another -/

/-- `regulator_init`. -/
def regulatorInit (sur : Surroundings) (m : Rig) : Int × Rig :=
  let m := m.debugPrintf "[REG] Starting regulator init"
  match m.awaitReady sur.regulatorReady (fmtAttempt "[REG] Waiting for regulator" regulatorTryCount)
      (fmtNotReady "[REG] Regulator" regulatorTryCount) 0 regulatorTryCount with
  | (false, m) => (-1, m)
  | (true, m) =>
      let m := m.debugPrintf "[REG] Regulator ready, setting voltage to 1.2V"
      let (ret, device) := m.device.regulatorSetVoltage 1200000
      let m := { m with device }.debugPrintf ("[REG] set_voltage returned " ++ toString ret)
      let (ret, device) := m.device.regulatorDisable
      let m := { m with device }.debugPrintf ("[REG] disable returned " ++ toString ret)
      (0, m.debugPrintf "[REG] Regulator init complete")

/-- A call to the clock generator; where it fails, so does what calls it. -/
def attempt (call : Si5351aDriver → Int × Si5351aDriver) (failed : String)
    (next : Rig → Int × Rig) (m : Rig) : Int × Rig :=
  let (ret, clock) := call m.clock
  let m := { m with clock }
  if ret ≠ 0 then (ret, m.debugPrintf failed) else next m

section Calls

variable (floor128 : UInt32 → UInt32 → Nat) (pllHz : UInt32 → UInt32 → UInt32 → UInt32 → UInt32)
  (cfg : Si5351aDts)

/-- `init_si5351a`. -/
def initSi5351a (sur : Surroundings) (m : Rig) : Int × Rig :=
  let m := m.debugPrintf "[SI5351A] Starting init"
  match m.awaitReady sur.si5351aReady (fmtAttempt "[SI5351A] Waiting for device" si5351aTryCount)
      (fmtNotReady "[SI5351A] Device" si5351aTryCount) 0 si5351aTryCount with
  | (false, m) => (-1, m)
  | (true, m) =>
      let m := m.debugPrintf "[SI5351A] setting pll registers"
      m.attempt (fun clock => clock.setPllFreq floor128 pllHz cfg Si5351a.pllA 600000000)
          "[SI5351A] Failed to set PLLA registers" fun m =>
        m.attempt (fun clock => clock.setMsFreq floor128 0 500000 0 Si5351a.pllA)
            "[SI5351A] Failed to set multisynth registers" fun m =>
          m.attempt (fun clock => clock.resetPll true true) "[SI5351A] Failed to reset PLL" fun m =>
            m.attempt (fun clock => clock.enableOutput 0 true) "[SI5351A] Failed to enable output"
              fun m => (0, m)

/-- `init_rtc`. -/
def initRtc (sur : Surroundings) (m : Rig) : Int × Rig :=
  let m := m.debugPrintf "[RTC] Starting RTC init"
  match m.awaitReady sur.rtcReady (fmtAttempt "[RTC] Waiting for device" rtcTryCount)
      (fmtNotReady "[RTC] Device" rtcTryCount) 0 rtcTryCount with
  | (false, m) => (-1, m)
  | (true, m) => (0, m.debugPrintf "[RTC] Device ready, init complete")

/-- `tr_switch_init`. -/
def trSwitchInit (sur : Surroundings) (m : Rig) : Int × Rig :=
  if sur.trFwdReady = false ∨ sur.trBwdReady = false then (-19, m)
  else (0, { m with device := { m.device with trFwd := false, trBwd := true, txActive := false } })

/-- `init_oled`. -/
def initOled (sur : Surroundings) (m : Rig) : Int × Rig :=
  let m := m.debugPrintf "[OLED] Starting OLED init"
  match m.awaitReady sur.oledReady (fmtAttempt "[OLED] Waiting for device" oledTryCount)
      (fmtNotReady "[OLED] Device" oledTryCount) 0 (oledTryCount - 1) with
  | (false, m) => (-19, m)
  | (true, m) =>
      let m := m.debugPrintf "[OLED] Initializing framebuffer"
      let ret := sur.framebufferInit
      if ret ≠ 0 then
        (ret, m.debugPrintf ("[OLED] Failed to initialize framebuffer: " ++ toString ret))
      else
        let m := m.debugPrintf "[OLED] Setting font"
        let ret := sur.framebufferSetFont
        if ret ≠ 0 then (ret, m.debugPrintf ("[OLED] Failed to set font: " ++ toString ret))
        else
          let m := m.debugPrintf "[OLED] Turning on display"
          let ret := sur.blankingOff
          if ret ≠ 0 then (ret, m.debugPrintf ("[OLED] Failed to turn on display: " ++ toString ret))
          else (0, { m with oledInitialized := true })

/-- `tx_engine_init`. -/
def txEngineInit (m : Rig) : Rig :=
  { m with device := { m.device with
      txTimer := none, txWork := false, activeSeq := none, engineActive := false
      out := m.device.out ++ [.printk "tx_engine: initialized\n"] } }

/-- `main`: whether it gets to its loop, and what it has done by then. -/
def main (sur : Surroundings) (m : Rig) : Bool × Rig :=
  let m := m.debugPrintf "=== minihf boot ==="
  let (ret, m) := m.initSi5351a floor128 pllHz cfg sur
  if ret < 0 then (false, m.debugPrintf "[MAIN] SI5351A init failed, aborting")
  else
    let (ret, m) := m.regulatorInit sur
    let m := if ret < 0 then m.debugPrintf "[MAIN] Regulator init failed, continuing without it" else m
    let (ret, m) := m.initRtc sur
    if ret < 0 then (false, m.debugPrintf "[MAIN] RTC init failed, aborting")
    else
      let (ret, m) := m.trSwitchInit sur
      if ret < 0 then (false, m.debugPrintf "[MAIN] TR switch init failed, aborting")
      else
        let (ret, m) := m.initOled sur
        let m := if ret < 0 then m.debugPrintf "[MAIN] OLED init failed, continuing without it" else m
        let m := m.debugPrintf "[MAIN] Initializing TX engine"
        let m := m.txEngineInit
        let m := m.debugPrintf "[MAIN] Configuring LEDs"
        (true, m.debugPrintf "[MAIN] Init complete, entering main loop")

end Calls

/-- The text of a round. -/
def statusText (status : Si5351aStatus) : String :=
  "[CLK] SYS_INIT=" ++ toString status.sysInit ++ " LOL_A=" ++ toString status.lolA ++ " LOL_B="
    ++ toString status.lolB ++ " LOS=" ++ toString status.los ++ " REV=" ++ toString status.revid

/-- A round of the loop, and the transfers it meets with. -/
def round (m : Rig) (transfers : List Transfer) : Rig :=
  let (_, clock) := { m.clock with transfers }.updateStatus
  { m with clock }.debugPrintf (statusText clock.devStatus)

/-- The device as the commands find it. -/
def running (m : Rig) : Device := { m.device with si5351aRegs := m.clock.regs }

end Rig

end MiniHF
