import MiniHF.Modes.Sequence

/-!
# Radio teletype

A character goes out as a five-bit code between a start and a stop symbol, each a
frequency: space and mark. There are two tables of 32 codes, letters and figures,
and a code of its own in both of them changes over. `generate_rtty_sequence` counts
the codes in one pass over the text and writes the symbols in another, and keeps
track of the table in force in both.

The durations are computed in floating point from the configuration. They are
arguments here: `bitUsec` for `(uint32_t)(1000000.0f / baud_rate)` and `stopUs` for
`(uint32_t)(bit_usec * stop_bits)`. Half of a 16-bit shift is exact in a `float`.
-/

namespace MiniHF.Modes.Rtty

open Buffer

def baudotLtrsShift : UInt8 := 0x1F
def baudotFigsShift : UInt8 := 0x1B
def baudotSpace : UInt8 := 0x04
def baudotCr : UInt8 := 0x08
def baudotLf : UInt8 := 0x02

/-- `ITA2_LTRS`. -/
def ita2Ltrs : List UInt8 :=
  ['\x00', 'E', '\n', 'A', ' ', 'S', 'I', 'U',
   '\r', 'D', 'R', 'J', 'N', 'F', 'C', 'K',
   'T', 'Z', 'L', 'W', 'H', 'Y', 'P', 'Q', 'O',
   'B', 'G', '\x00', 'M', 'X', 'V', '\x00'].map Char.toUInt8

/-- `ITA2_FIGS`. -/
def ita2Figs : List UInt8 :=
  ['\x00', '3', '\n', '-', ' ', '\x27', '8', '7',
   '\r', '\x05', '4', '\x07', ',', '!', ':', '(',
   '5', '+', ')', '2', '#', '6', '0', '1', '9',
   '?', '&', '\x00', '.', '/', '=', '\x00'].map Char.toUInt8

/-- `shift_state_t`. -/
inductive ShiftState where
  | any
  | ltrs
  | figs
deriving DecidableEq, Repr

/-- `ascii_to_ita2`: the code of a character and the table it is in, if it is in one. -/
def asciiToIta2 (ch : UInt8) : Option (UInt8 × ShiftState) :=
  let c := toupper ch
  if c = ' '.toUInt8 then some (baudotSpace, .any)
  else if c = '\r'.toUInt8 then some (baudotCr, .any)
  else if c = '\n'.toUInt8 then some (baudotLf, .any)
  else
    match ita2Ltrs.idxOf? c with
    | some i => some (UInt8.ofNat i, .ltrs)
    | none =>
        match ita2Figs.idxOf? c with
        | some i => some (UInt8.ofNat i, .figs)
        | none => none

/-- `rtty_config_t`. -/
structure RttyConfig where
  baudRate : Rat
  shiftHz : UInt16
  stopBits : Rat
  reverseShift : Bool
  useCenterFreq : Bool

/-- `mark_offset`. -/
def markOffset (config : RttyConfig) : Rat :=
  if config.useCenterFreq then
    let halfShift : Rat := (config.shiftHz.toNat : Rat) / 2
    if config.reverseShift then -halfShift else halfShift
  else if config.reverseShift then (config.shiftHz.toNat : Rat) else 0

/-- `space_offset`. -/
def spaceOffset (config : RttyConfig) : Rat :=
  if config.useCenterFreq then
    let halfShift : Rat := (config.shiftHz.toNat : Rat) / 2
    if config.reverseShift then halfShift else -halfShift
  else if config.reverseShift then 0 else (config.shiftHz.toNat : Rat)

/-- A turn of the first pass: the codes so far and the table in force. -/
def countCode : Nat × ShiftState → UInt8 → Nat × ShiftState
  | (baudotCharCount, currentState), ch =>
      match asciiToIta2 ch with
      | some (_, reqShift) =>
          if reqShift ≠ .any ∧ reqShift ≠ currentState then (baudotCharCount + 1 + 1, reqShift)
          else (baudotCharCount + 1, currentState)
      | none => (baudotCharCount, currentState)

/-- The first pass: how many codes there are, shifts included, and the table in force behind
them. -/
def countCodes (text : List UInt8) : Nat × ShiftState := text.foldl countCode (0, .ltrs)

/-- How long a symbol lasts, and the two frequencies. -/
structure Line where
  bitUsec : UInt32
  stopUsec : UInt32
  mark : Rat
  space : Rat

/-- What `push_baudot` stores: the start symbol, five bits from the low end, the stop symbol. -/
def baudotSymbols (line : Line) (baudotCode : UInt8) : List TxSymbol :=
  { freqOffsetHz := line.space, durationUs := line.bitUsec, txOn := true }
    :: (List.range 5).map (fun b =>
      let isMark := (baudotCode >>> UInt8.ofNat b) &&& 0x01 != 0
      { freqOffsetHz := if isMark then line.mark else line.space
        durationUs := line.bitUsec
        txOn := true })
    ++ [{ freqOffsetHz := line.mark, durationUs := line.stopUsec, txOn := true }]

/-- `push_baudot`: seven stores, one behind the other. -/
def pushBaudot {n : Nat} (line : Line) (baudotCode : UInt8) (symbols : Vector TxSymbol n)
    (index : Nat) : Except Fault (Vector TxSymbol n × Nat) := do
  let symbols ← memcpy symbols index (baudotSymbols line baudotCode)
  return (symbols, index + 7)

/-- The code that changes over to a table. -/
def shiftCode (reqShift : ShiftState) : UInt8 :=
  if reqShift = .ltrs then baudotLtrsShift else baudotFigsShift

/-- The second pass. -/
def fill {n : Nat} (line : Line) (symbols : Vector TxSymbol n) (symIdx : Nat)
    (currentState : ShiftState) : List UInt8 → Except Fault (Vector TxSymbol n × Nat)
  | [] => .ok (symbols, symIdx)
  | ch :: text =>
      match asciiToIta2 ch with
      | some (code, reqShift) =>
          if reqShift ≠ .any ∧ reqShift ≠ currentState then do
            let (symbols, symIdx) ← pushBaudot line (shiftCode reqShift) symbols symIdx
            let (symbols, symIdx) ← pushBaudot line code symbols symIdx
            fill line symbols symIdx reqShift text
          else do
            let (symbols, symIdx) ← pushBaudot line code symbols symIdx
            fill line symbols symIdx currentState text
      | none => fill line symbols symIdx currentState text

section Generate

variable (bitUsec : Rat → UInt32) (stopUs : UInt32 → Rat → UInt32)

/-- The line of a configuration. -/
def lineOf (config : RttyConfig) : Line where
  bitUsec := bitUsec config.baudRate
  stopUsec := stopUs (bitUsec config.baudRate) config.stopBits
  mark := markOffset config
  space := spaceOffset config

/-- `generate_rtty_sequence`; a missing text or configuration is a `NULL` argument. -/
def generateRttySequence (malloc : Malloc) (text : Option (List UInt8))
    (config : Option RttyConfig) (txSequence : SequenceRecord) :
    Except Fault (Int × SequenceRecord) :=
  match text, config with
  | some text, some config =>
      let line := lineOf bitUsec stopUs config
      let requiredSymbols := (countCodes text).1 * 7
      match malloc requiredSymbols with
      | none => .ok (-2, { txSequence with symbols := none })
      | some symbols => do
          let (symbols, _) ← fill line symbols 0 .ltrs text
          return (0, { txSequence with
            symbols := some symbols.toList
            totalSymbols := requiredSymbols
            currentIndex := 0 })
  | _, _ => .ok (-1, txSequence)

end Generate

end MiniHF.Modes.Rtty
