import MiniHF.Host.Codec

/-!
# The reader loop of the host

The reader thread appends what a read gives to `rx_buf` and takes out every frame
that is complete: everything up to the first zero byte, over and over. A frame
that decodes to a packet is a debug message or a response; responses go into a
map under their id, where a later one replaces an earlier one.
-/

namespace MiniHF.Host

/-- `DEBUG_MSG_CMD`. -/
def debugMsgCmd : UInt8 := 0xFC

/-- What the reader thread keeps, and what it has passed on. -/
structure Reader where
  rxBuf : List UInt8
  /-- The map of responses. -/
  responses : UInt16 → Option Packet
  /-- The payloads of the debug messages logged. -/
  debugLog : List (List UInt8)
  /-- Proof only: the packets recognised, in order. -/
  recognised : List Packet

/-- The reader when its thread starts. -/
def Reader.init : Reader where
  rxBuf := []
  responses := fun _ => none
  debugLog := []
  recognised := []

/-- `map.insert`, on a map with the packet ids as keys. -/
def insertResponse {α : Type} (responses : UInt16 → Option α) (id : UInt16) (a : α) :
    UInt16 → Option α :=
  fun id' => if id' = id then some a else responses id'

/-- What happens to a packet. -/
def Reader.route (r : Reader) (pkt : Packet) : Reader :=
  if pkt.type = debugMsgCmd then
    { r with debugLog := r.debugLog ++ [pkt.payload], recognised := r.recognised ++ [pkt] }
  else
    { r with
      responses := insertResponse r.responses pkt.id pkt, recognised := r.recognised ++ [pkt] }

section Loop

-- `decode_vec` of the `cobs` crate, and the CRC function.
variable (decodeVec : List UInt8 → Option (List UInt8)) (crc16Kermit : List UInt8 → UInt16)

/-- What happens to a frame without its delimiter. -/
def Reader.frame (r : Reader) (frameBytes : List UInt8) : Reader :=
  if frameBytes.isEmpty then r
  else
    match decodeVec frameBytes with
    | some decoded =>
        match parsePacket crc16Kermit decoded with
        | some pkt => r.route pkt
        | none => r
    | none => r

theorem Reader.frame_rxBuf (r : Reader) (frameBytes : List UInt8) :
    (r.frame decodeVec crc16Kermit frameBytes).rxBuf = r.rxBuf := by
  unfold Reader.frame
  split
  · rfl
  · split
    · split
      · unfold Reader.route
        split <;> rfl
      · rfl
    · rfl

/-- The `while let` loop over the complete frames of `rx_buf`. -/
def Reader.drain (r : Reader) : Reader :=
  match h : r.rxBuf.findIdx? (· == 0x00) with
  | some idx =>
      let frameData := r.rxBuf.take (idx + 1)
      let frameBytes := frameData.take (frameData.length - 1)
      let r := { r with rxBuf := r.rxBuf.drop (idx + 1) }
      (r.frame decodeVec crc16Kermit frameBytes).drain
  | none => r
termination_by r.rxBuf.length
decreasing_by
  have := (List.findIdx?_eq_some_iff_findIdx_eq.mp h).1
  rw [Reader.frame_rxBuf, List.length_drop]
  omega

/-- One round of the reader loop, for the bytes a read gave. -/
def Reader.read (r : Reader) (bytes : List UInt8) : Reader :=
  if bytes.length > 0 then
    { r with rxBuf := r.rxBuf ++ bytes }.drain decodeVec crc16Kermit
  else r

/-- The rounds of the loop that read `chunks`. -/
def Reader.reads (r : Reader) (chunks : List (List UInt8)) : Reader :=
  chunks.foldl (fun r bytes => r.read decodeVec crc16Kermit bytes) r

end Loop

end MiniHF.Host
