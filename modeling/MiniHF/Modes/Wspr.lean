import MiniHF.Modes.Sequence

/-!
# WSPR

A message is a callsign, a grid of four characters and a power. The callsign makes
a number of 28 bits and the other two one of 22. Their 50 bits go through a
convolutional code of two outputs an input bit, the 162 outputs change places by
the reversal of an 8-bit counter, and each is joined with a bit of a fixed vector to
one of four symbols.

The arrays on the stack are not cleared: what they hold before they are written is
an argument (`Stack`). An `int` that can hold every value it gets is an `Int`. The
frequency of a symbol is computed in floating point, and is an argument too.
-/

namespace MiniHF.Modes.Wspr

open Buffer Ftx

/-- `sync_vector`. -/
def syncVector : Vector UInt8 162 := #v[
  1,1,0,0,0,0,0,0,1,0,0,0,1,1,1,0,0,0,1,0,
  0,1,0,1,1,1,1,0,0,0,0,0,0,0,1,0,0,1,0,1,
  0,0,0,0,0,0,1,0,1,1,0,0,1,1,0,1,0,0,0,1,
  1,0,1,0,0,0,0,1,1,0,1,0,1,0,1,0,1,0,0,1,
  0,0,1,0,1,1,0,0,0,1,1,0,1,0,1,0,0,0,1,0,
  0,0,0,0,1,0,0,1,0,0,1,1,1,0,1,1,0,0,1,1,
  0,1,0,0,0,1,1,1,0,0,0,0,0,1,0,1,0,0,1,1,
  0,0,0,0,0,0,0,1,1,0,1,0,1,1,0,0,0,1,1,0,
  0,0]

/-- `valid_powers`. -/
def validPowers : List Int :=
  [0, 3, 7, 10, 13, 17, 20, 23, 27, 30, 33, 37, 40, 43, 47, 50, 53, 57, 60]

/-- `is_valid_power`. -/
def isValidPower (power : Int) : Bool := validPowers.any (fun p => p == power)

/-- `c - '0'`, as an `int`. -/
def charDiff (c : UInt8) (base : Char) : Int := (c.toNat : Int) - base.toUInt8.toNat

/-- `grid_char_to_index`. -/
def gridCharToIndex (c : UInt8) : Int :=
  let c := toupper c
  if between 'A' 'R' c then charDiff c 'A' else -1

/-- `callsign_char_value`. -/
def callsignCharValue (c : UInt8) : Int :=
  if between '0' '9' c then charDiff c '0'
  else if between 'A' 'Z' c then charDiff c 'A' + 10
  else 36

/-- `parity`. -/
def parity (v : UInt32) : UInt8 :=
  let v := v ^^^ (v >>> 16)
  let v := v ^^^ (v >>> 8)
  let v := v ^^^ (v >>> 4)
  let v := v ^^^ (v >>> 2)
  let v := v ^^^ (v >>> 1)
  (v &&& 1).toUInt8

/-- `bit_reverse8`. -/
def bitReverse8 (v : UInt8) : UInt8 :=
  let v := ((v &&& 0xF0) >>> 4) ||| ((v &&& 0x0F) <<< 4)
  let v := ((v &&& 0xCC) >>> 2) ||| ((v &&& 0x33) <<< 2)
  ((v &&& 0xAA) >>> 1) ||| ((v &&& 0x55) <<< 1)

/-- `validate_callsign`. -/
def validateCallsign (callsign : List UInt8) : Bool :=
  if callsign.length < 2 || callsign.length > 6 then false
  else callsign.all (fun c => isalnum c || c == '/'.toUInt8)

/-- `validate_grid`. -/
def validateGrid (grid : List UInt8) : Bool :=
  if grid.length ≠ 4 then false
  else
    let c0 := toupper (charAt grid 0)
    let c1 := toupper (charAt grid 1)
    if !between 'A' 'R' c0 || !between 'A' 'R' c1 then false
    else if !isdigit (charAt grid 2) || !isdigit (charAt grid 3) then false
    else true

/-- `pad_callsign`: six characters, a blank in front when a letter and a digit come first. -/
def padCallsign (callsign : List UInt8) : List UInt8 :=
  let lead :=
    if callsign.length ≥ 2 && isalpha (charAt callsign 0) && isdigit (charAt callsign 1) then
      [space]
    else []
  List.rightpad 6 space (lead ++ (callsign.map toupper).take (6 - lead.length))

/-- `encode_callsign`; the differences are `int`s and turn into `uint32_t`s in the sum. -/
def encodeCallsign (callsign : List UInt8) : UInt32 :=
  let padded := padCallsign callsign
  let n := UInt32.ofInt (callsignCharValue (charAt padded 0))
  let n := n * 36 + UInt32.ofInt (callsignCharValue (charAt padded 1))
  let n := n * 10 + UInt32.ofInt (callsignCharValue (charAt padded 2))
  let n := n * 27 + UInt32.ofInt (callsignCharValue (charAt padded 3) - 10)
  let n := n * 27 + UInt32.ofInt (callsignCharValue (charAt padded 4) - 10)
  n * 27 + UInt32.ofInt (callsignCharValue (charAt padded 5) - 10)

/-- `encode_grid_power`. -/
def encodeGridPower (grid : List UInt8) (power : Int) : Int32 :=
  let loc1 := gridCharToIndex (charAt grid 0)
  let loc2 := gridCharToIndex (charAt grid 1)
  let loc3 := charDiff (charAt grid 2) '0'
  let loc4 := charDiff (charAt grid 3) '0'
  if loc1 < 0 ∨ loc2 < 0 then -1
  else
    let m := (179 - 10 * loc1 - loc3) * 180 + 10 * loc2 + loc4
    Int32.ofInt (m * 128 + power + 64)

/-- `pack_message`. -/
def packMessage (n : UInt32) (m : Int32) : Vector UInt8 11 :=
  let packed : Vector UInt8 11 := Vector.replicate 11 0
  let packed := packed.set 0 ((n >>> 20) &&& 0xFF).toUInt8
  let packed := packed.set 1 ((n >>> 12) &&& 0xFF).toUInt8
  let packed := packed.set 2 ((n >>> 4) &&& 0xFF).toUInt8
  let packed := packed.set 3 (((n &&& 0x0F) <<< 4) ||| ((m >>> 18) &&& 0x0F).toUInt32).toUInt8
  let packed := packed.set 4 ((m >>> 10) &&& 0xFF).toUInt32.toUInt8
  let packed := packed.set 5 ((m >>> 2) &&& 0xFF).toUInt32.toUInt8
  packed.set 6 ((m &&& 0x03) <<< 6).toUInt32.toUInt8

/-- The inner loop of `convolve`: the bits of a byte, from `j` down. -/
def convolveByte (byte : UInt8) (shiftReg : UInt32) (convolved : Vector UInt8 162) (outIdx : Nat) :
    List Nat → Except Fault (UInt32 × Vector UInt8 162 × Nat)
  | [] => .ok (shiftReg, convolved, outIdx)
  | j :: js =>
      if outIdx < 162 then do
        let inputBit := (byte >>> UInt8.ofNat j) &&& 1
        let shiftReg := (shiftReg <<< 1) ||| inputBit.toUInt32
        let convolved ← store convolved outIdx (parity (shiftReg &&& 0xF2D05351))
        let convolved ← store convolved (outIdx + 1) (parity (shiftReg &&& 0xE4613C47))
        convolveByte byte shiftReg convolved (outIdx + 2) js
      else .ok (shiftReg, convolved, outIdx)

/-- The outer loop of `convolve`. -/
def convolveBytes (shiftReg : UInt32) (convolved : Vector UInt8 162) (outIdx : Nat) :
    List UInt8 → Except Fault (Vector UInt8 162)
  | [] => .ok convolved
  | byte :: packed =>
      if outIdx < 162 then do
        let (shiftReg, convolved, outIdx) ←
          convolveByte byte shiftReg convolved outIdx [7, 6, 5, 4, 3, 2, 1, 0]
        convolveBytes shiftReg convolved outIdx packed
      else .ok convolved

/-- `convolve`. -/
def convolve (packed : Vector UInt8 11) (convolved : Vector UInt8 162) :
    Except Fault (Vector UInt8 162) := convolveBytes 0 convolved 0 packed.toList

/-- The loop of `interleave`, for the `j` that are left. -/
def interleaveFrom (convolved interleaved : Vector UInt8 162) (src : Nat) :
    List Nat → Except Fault (Vector UInt8 162)
  | [] => .ok interleaved
  | j :: js =>
      if src < 162 then
        let rev := bitReverse8 (UInt8.ofNat j)
        if rev < 162 then do
          let value ← load convolved src
          let interleaved ← store interleaved rev.toNat value
          interleaveFrom convolved interleaved (src + 1) js
        else interleaveFrom convolved interleaved src js
      else .ok interleaved

/-- `interleave`. -/
def interleave (convolved interleaved : Vector UInt8 162) : Except Fault (Vector UInt8 162) :=
  interleaveFrom convolved interleaved 0 (List.range 256)

/-- The loop of `merge_sync`, for the `i` that are left. -/
def mergeSyncFrom (interleaved symbols : Vector UInt8 162) :
    List Nat → Except Fault (Vector UInt8 162)
  | [] => .ok symbols
  | i :: is => do
      let value ← load interleaved i
      let sync ← load syncVector i
      let symbols ← store symbols i (value * 2 + sync)
      mergeSyncFrom interleaved symbols is

/-- `merge_sync`. -/
def mergeSync (interleaved symbols : Vector UInt8 162) : Except Fault (Vector UInt8 162) :=
  mergeSyncFrom interleaved symbols (List.range 162)

/-- What the arrays on the stack of `generate_wspr_sequence` and `wspr_encode` hold before they are
written. -/
structure Stack where
  channelSymbols : Vector UInt8 162
  convolved : Vector UInt8 162
  interleaved : Vector UInt8 162

/-- What `wspr_encode` does with the two numbers of a message. -/
def channelCode (stack : Stack) (n : UInt32) (m : Int32) (symbols : Vector UInt8 162) :
    Except Fault (Vector UInt8 162) := do
  let packed := packMessage n m
  let convolved ← convolve packed stack.convolved
  let interleaved ← interleave convolved stack.interleaved
  mergeSync interleaved symbols

/-- `wspr_encode`. -/
def wsprEncode (stack : Stack) (callsign grid : List UInt8) (power : Int)
    (symbols : Vector UInt8 162) : Except Fault (Int × Vector UInt8 162) :=
  let n := encodeCallsign callsign
  let m := encodeGridPower grid power
  if m < 0 then .ok (-1, symbols)
  else do
    let symbols ← channelCode stack n m symbols
    return (0, symbols)

/-- `wspr_payload_t`. -/
structure WsprPayload where
  callsign : CString 6
  grid : CString 4
  powerDbm : Int

section Generate

variable (toneHz : UInt8 → Rat)

/-- The symbol stored for a channel symbol; `toneHz` is for
`channel_symbols[i] * WSPR_TONE_SPACING`. -/
def toneSymbol (c : UInt8) : TxSymbol :=
  { freqOffsetHz := toneHz c, durationUs := 682667, txOn := true }

/-- The loop of `generate_wspr_sequence`, for the `i` that are left. -/
def fillFrom (channelSymbols : Vector UInt8 162) (symbols : Vector TxSymbol 162) :
    List Nat → Except Fault (Vector TxSymbol 162)
  | [] => .ok symbols
  | i :: is => do
      let c ← load channelSymbols i
      let symbols ← store symbols i (toneSymbol toneHz c)
      fillFrom channelSymbols symbols is

/-- `generate_wspr_sequence`; a missing payload is a `NULL` argument. -/
def generateWsprSequence (stack : Stack) (malloc : Malloc) (payload : Option WsprPayload)
    (txSequence : SequenceRecord) : Except Fault (Int × SequenceRecord) :=
  match payload with
  | none => .ok (-1, txSequence)
  | some payload =>
      if !validateCallsign payload.callsign.chars then .ok (-1, txSequence)
      else if !validateGrid payload.grid.chars then .ok (-1, txSequence)
      else if !isValidPower payload.powerDbm then .ok (-1, txSequence)
      else do
        let (status, channelSymbols) ← wsprEncode stack payload.callsign.chars payload.grid.chars
          payload.powerDbm stack.channelSymbols
        if status ≠ 0 then .ok (-1, txSequence)
        else
          match malloc 162 with
          | none => .ok (-2, { txSequence with symbols := none })
          | some symbols => do
              let symbols ← fillFrom toneHz channelSymbols symbols (List.range 162)
              return (0, { txSequence with
                symbols := some symbols.toList
                totalSymbols := 162
                currentIndex := 0 })

end Generate

end MiniHF.Modes.Wspr
