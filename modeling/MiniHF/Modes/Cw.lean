import MiniHF.Modes.Sequence

/-!
# Morse code

`generate_cw_sequence` goes over the text twice: once to count the symbols and once
to write them. Every dot or dash is a keyed symbol and a silent one behind it, of
one dot. The silent symbol that is last so far is made longer when a space or
another character comes.
-/

namespace MiniHF.Modes.Cw

open Buffer Ftx

/-- `MORSE_TABLE`. -/
def morseTable : List (Char × String) :=
  [('A', ".-"), ('B', "-..."), ('C', "-.-."), ('D', "-.."), ('E', "."), ('F', "..-."),
   ('G', "--."), ('H', "...."), ('I', ".."), ('J', ".---"), ('K', "-.-"), ('L', ".-.."),
   ('M', "--"), ('N', "-."), ('O', "---"), ('P', ".--."), ('Q', "--.-"), ('R', ".-."),
   ('S', "..."), ('T', "-"), ('U', "..-"), ('V', "...-"), ('W', ".--"), ('X', "-..-"),
   ('Y', "-.--"), ('Z', "--.."),
   ('0', "-----"), ('1', ".----"), ('2', "..---"), ('3', "...--"), ('4', "....-"),
   ('5', "....."), ('6', "-...."), ('7', "--..."), ('8', "---.."), ('9', "----.")]

/-- `c < 128 ? MORSE_TABLE[c] : NULL`. -/
def morseCode (c : UInt8) : Option (List UInt8) :=
  (morseTable.find? (fun entry => entry.1.toUInt8 == c)).map (fun entry => literal entry.2)

def dot : UInt8 := '.'.toUInt8

/-- `calculate_dot_duration_us`. -/
def calculateDotDurationUs (wpm : UInt32) : UInt32 := 1200000 / wpm

/-- `estimated_capacity`. -/
def estimatedCapacity (text : List UInt8) : Nat :=
  text.foldl
    (fun capacity ch =>
      let c := toupper ch
      if c = space then capacity
      else
        match morseCode c with
        | some code => capacity + code.length * 2
        | none => capacity)
    0

section Fill

variable {n : Nat} (dotUs : UInt32)

/-- `if (sym_idx > 0 && !sym_array[sym_idx - 1].tx_on) sym_array[sym_idx - 1].duration_us += us` -/
def stretchGap (symArray : Vector TxSymbol n) (symIdx : Nat) (us : UInt32) :
    Except Fault (Vector TxSymbol n) :=
  if symIdx > 0 then do
    let last ← load symArray (symIdx - 1)
    if !last.txOn then
      store symArray (symIdx - 1) { last with durationUs := last.durationUs + us }
    else .ok symArray
  else .ok symArray

/-- The `while (*code)` loop. -/
def keyCode (symArray : Vector TxSymbol n) (symIdx : Nat) :
    List UInt8 → Except Fault (Vector TxSymbol n × Nat)
  | [] => .ok (symArray, symIdx)
  | mark :: code => do
      let dashUs := 3 * dotUs
      let symArray ← store symArray symIdx
        { txOn := true, freqOffsetHz := 0, durationUs := if mark = dot then dotUs else dashUs }
      let symIdx := symIdx + 1
      let symArray ← store symArray symIdx
        { txOn := false, freqOffsetHz := 0, durationUs := dotUs }
      let symIdx := symIdx + 1
      keyCode symArray symIdx code

/-- The second loop over the text. -/
def fill (symArray : Vector TxSymbol n) (symIdx : Nat) :
    List UInt8 → Except Fault (Vector TxSymbol n × Nat)
  | [] => .ok (symArray, symIdx)
  | ch :: text => do
      let c := toupper ch
      if c = space then do
        let symArray ← stretchGap symArray symIdx (6 * dotUs)
        fill symArray symIdx text
      else
        match morseCode c with
        | some code => do
            let symArray ← stretchGap symArray symIdx (2 * dotUs)
            let (symArray, symIdx) ← keyCode dotUs symArray symIdx code
            fill symArray symIdx text
        | none => fill symArray symIdx text

end Fill

/-- `generate_cw_sequence`. -/
def generateCwSequence (malloc : Malloc) (text : List UInt8) (wpm : UInt32)
    (txSequence : SequenceRecord) : Except Fault SequenceRecord :=
  let dotUs := calculateDotDurationUs wpm
  match malloc (estimatedCapacity text) with
  | none => .ok { txSequence with symbols := none, totalSymbols := 0 }
  | some symArray => do
      let (symArray, symIdx) ← fill dotUs symArray 0 text
      return { txSequence with symbols := some symArray.toList, totalSymbols := symIdx }

end MiniHF.Modes.Cw
