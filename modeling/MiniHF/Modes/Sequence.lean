import MiniHF.Modes.Ftx
import MiniHF.Radio.Device

/-!
# What the symbol generators share

A generator allocates an array of symbols, fills it and leaves it in the caller's
`tx_sequence_t`. What `k_malloc` returns is an argument: no memory, or an array of
the size asked for with anything in it. The characters of a text go through the
functions of `ctype.h`, in the C locale.
-/

namespace MiniHF.Modes

open Ftx (between upper)

/-- `tx_sequence_t` as a generator finds and leaves it: `symbols` may be `NULL`, and nothing says
that the count is right. -/
structure SequenceRecord where
  baseFreqHz : UInt32
  /-- The entries `symbols` points to. -/
  symbols : Option (List TxSymbol)
  totalSymbols : Nat
  currentIndex : Nat
  repeats : Bool
deriving DecidableEq, Repr

/-- The symbols the engine would play. -/
def SequenceRecord.played (seq : SequenceRecord) : List TxSymbol :=
  (seq.symbols.getD []).take seq.totalSymbols

/-- `k_malloc` for a number of symbols. -/
def Malloc := (n : Nat) → Option (Vector TxSymbol n)

def toupper (c : UInt8) : UInt8 := upper c

def isdigit (c : UInt8) : Bool := between '0' '9' c

def isalpha (c : UInt8) : Bool := between 'A' 'Z' c || between 'a' 'z' c

def isalnum (c : UInt8) : Bool := isalpha c || isdigit c

end MiniHF.Modes
