import MiniHF.Protocol.Payload

/-!
# The writer over memory

`payload_writer_t` is a pointer, a count and a flag. The memory it points into is here,
with whatever stands around the buffer, and every byte is stored where the pointer says.
-/

namespace MiniHF

open Buffer LittleEndian

/-- `payload_writer_t`, and the memory `ptr` is a place in. -/
structure RawWriter (n : Nat) where
  memory : Vector UInt8 n
  ptr : Nat
  remaining : Nat
  error : Bool

namespace RawWriter

variable {n : Nat}

/-- `writer_init`, on the `len` bytes from `buffer` on. -/
def init (memory : Vector UInt8 n) (buffer len : Nat) : RawWriter n where
  memory
  ptr := buffer
  remaining := len
  error := false

/-- Store bytes and go behind them. -/
def write (w : RawWriter n) (src : List UInt8) : Except Fault (RawWriter n) := do
  let memory ← memcpy w.memory w.ptr src
  return { w with
    memory, ptr := w.ptr + src.length, remaining := w.remaining - src.length }

/-- A number in `size` bytes, least significant first. -/
def put (size : Nat) (w : RawWriter n) (val : Nat) : Except Fault (RawWriter n) :=
  if w.remaining < size then .ok { w with error := true } else w.write (leBytes size val)

/-- `writer_put_u8`. -/
def putU8 (w : RawWriter n) (val : UInt8) : Except Fault (RawWriter n) := w.put 1 val.toNat

/-- `writer_put_u16`. -/
def putU16 (w : RawWriter n) (val : UInt16) : Except Fault (RawWriter n) := w.put 2 val.toNat

/-- `writer_put_u32`. -/
def putU32 (w : RawWriter n) (val : UInt32) : Except Fault (RawWriter n) := w.put 4 val.toNat

/-- `writer_put_u64`. -/
def putU64 (w : RawWriter n) (val : UInt64) : Except Fault (RawWriter n) := w.put 8 val.toNat

/-- `writer_put_bytes`; `src` are the `size` bytes it is given. -/
def putBytes (w : RawWriter n) (src : List UInt8) : Except Fault (RawWriter n) :=
  if w.remaining < src.length then .ok { w with error := true } else w.write src

/-- `writer_put_pstr`; `src` are the characters in front of the NUL. -/
def putPstr (w : RawWriter n) (src : List UInt8) : Except Fault (RawWriter n) :=
  let len := src.length
  if len > 255 then .ok { w with error := true }
  else if w.remaining < 1 + len then .ok { w with error := true }
  else do
    let memory ← store w.memory w.ptr (UInt8.ofNat len)
    write { w with memory, ptr := w.ptr + 1, remaining := w.remaining - 1 } src

/-- `writer_get_length`. -/
def getLength (w : RawWriter n) (startBuffer : Nat) : Nat := w.ptr - startBuffer

end RawWriter

end MiniHF
