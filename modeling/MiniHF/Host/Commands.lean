import MiniHF.Host.Api

/-!
# Every command of the library

What a method of `MiniHF` does before and after its `transact`: whether it refuses its
arguments, the type and the payload it sends, and what it makes of the payload that
comes back. `set_base_freq` begins here with the hundredths of a hertz it has rounded
to, and `get_base_freq` ends with those it was sent.
-/

namespace MiniHF.Host

open LittleEndian

/-- `BuckRegulatorState`. -/
structure BuckRegulatorState where
  enabled : Bool
  voltageLevel : UInt8
deriving DecidableEq, Repr

/-- A method that calls `transact`, with its arguments. -/
inductive ApiCall where
  | setRtcTime (time : RtcTime)
  | getRtcTime
  | setBaseFreq (freqInt : UInt64)
  | getBaseFreq
  | setBuckBoostRegulator (enabled : Bool) (voltageLevel : UInt8)
  | getBuckBoostRegulator
  | setTrSwitch (txMode : Bool)
  | txTestSignal (durationMs : UInt32)
deriving DecidableEq, Repr

/-- What a method returns. -/
inductive Answer where
  | unit
  | time (time : RtcTime)
  | freq (freqInt : UInt64)
  | regulator (state : BuckRegulatorState)
deriving DecidableEq, Repr

namespace ApiCall

/-- The `state` of `set_buck_boost_regulator`. -/
def buckBoostState (enabled : Bool) (voltageLevel : UInt8) : UInt8 :=
  (if enabled then 0x80 else 0x00) ||| (voltageLevel &&& 0x1F)

/-- What `get_buck_boost_regulator` makes of the response. -/
def decodeBuckBoost (resp : List UInt8) : Except MiniHFError BuckRegulatorState :=
  match resp with
  | [] => .error .invalidPacket
  | state :: _ => .ok { enabled := (state &&& 0x80) ≠ 0, voltageLevel := state &&& 0x1F }

/-- What a method hands to `transact`, unless it refuses its arguments. -/
def request : ApiCall → Except MiniHFError (UInt8 × List UInt8)
  | setRtcTime time => .ok (0x01, rtcTimePayload time)
  | getRtcTime => .ok (0x02, [])
  | setBaseFreq freqInt => .ok (0x03, baseFreqPayload freqInt)
  | getBaseFreq => .ok (0x04, [])
  | setBuckBoostRegulator enabled voltageLevel =>
      if voltageLevel > 18 then
        .error (.invalidArgument ("voltage_level must be 0–18, got " ++ toString voltageLevel))
      else .ok (0x05, [buckBoostState enabled voltageLevel])
  | getBuckBoostRegulator => .ok (0x06, [])
  | setTrSwitch txMode => .ok (0x08, [if txMode then 1 else 0])
  | txTestSignal durationMs =>
      if durationMs = 0 then
        .error (.invalidArgument "duration_ms must be greater than 0")
      else .ok (0x07, leBytes 4 durationMs.toNat)

/-- What a method makes of the payload of the response. -/
def decode : ApiCall → List UInt8 → Except MiniHFError Answer
  | getRtcTime, resp => (decodeRtcTime resp).map .time
  | getBaseFreq, resp => (decodeBaseFreq resp).map .freq
  | getBuckBoostRegulator, resp => (decodeBuckBoost resp).map .regulator
  | _, _ => .ok .unit

/-- What a method returns, from what `transact` has returned. -/
def finish (call : ApiCall) (resp : Except MiniHFError (List UInt8)) : Except MiniHFError Answer :=
  resp.bind call.decode

end ApiCall

end MiniHF.Host
