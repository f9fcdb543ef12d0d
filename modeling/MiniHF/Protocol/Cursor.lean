import MiniHF.Lib.Runs
import MiniHF.Protocol.Payload

/-!
# The cursor over memory

`payload_cursor_t` is a pointer, a count and a flag, and nothing in it says that they
belong together. Here the pointer is a place in the payload, every byte is read
where the pointer says, and a read outside the payload is a fault, as is a write
outside the destination.

A call with its destination is one event, and a run is any list of calls.
-/

namespace MiniHF

open Buffer LittleEndian Runs

/-- `payload_cursor_t`; `ptr` counts from the first byte of the payload. -/
structure RawCursor where
  ptr : Nat
  remaining : Nat
  error : Bool
deriving DecidableEq, Repr

namespace RawCursor

/-- `cursor_init`, on a payload of `len` bytes. -/
def init (len : Nat) : RawCursor where
  ptr := 0
  remaining := len
  error := false

section Calls

variable {len n : Nat} (data : Vector UInt8 len) (c : RawCursor)

/-- A read of `size` bytes, as a little-endian number; 0 where fewer remain. -/
def get (size : Nat) : Except Fault (Nat × RawCursor) :=
  if c.remaining < size then .ok (0, { c with error := true })
  else do
    let bytes ← loadRange data c.ptr size
    return (leValue bytes, { c with ptr := c.ptr + size, remaining := c.remaining - size })

/-- `cursor_get_u8`. -/
def getU8 : Except Fault (UInt8 × RawCursor) := do
  let (val, c) ← c.get data 1
  return (UInt8.ofNat val, c)

/-- `cursor_get_u16`. -/
def getU16 : Except Fault (UInt16 × RawCursor) := do
  let (val, c) ← c.get data 2
  return (UInt16.ofNat val, c)

/-- `cursor_get_u32`. -/
def getU32 : Except Fault (UInt32 × RawCursor) := do
  let (val, c) ← c.get data 4
  return (UInt32.ofNat val, c)

/-- `cursor_get_u64`. -/
def getU64 : Except Fault (UInt64 × RawCursor) := do
  let (val, c) ← c.get data 8
  return (UInt64.ofNat val, c)

/-- `cursor_get_bytes`. -/
def getBytes (dest : Vector UInt8 n) (size : Nat) : Except Fault (Vector UInt8 n × RawCursor) :=
  if c.remaining < size then do
    let dest ← memcpy dest 0 (List.replicate size 0)
    return (dest, { c with error := true })
  else do
    let bytes ← loadRange data c.ptr size
    let dest ← memcpy dest 0 bytes
    return (dest, { c with ptr := c.ptr + size, remaining := c.remaining - size })

/-- `cursor_get_pstr`. The length byte stays consumed where the string does not fit. -/
def getPstr (dest : Vector UInt8 n) (maxDestLen : Nat) :
    Except Fault (Vector UInt8 n × RawCursor) :=
  if c.remaining < 1 then do
    let dest ← store dest 0 0
    return (dest, { c with error := true })
  else do
    let strLen ← load data c.ptr
    let c := { c with ptr := c.ptr + 1, remaining := c.remaining - 1 }
    if c.remaining < strLen.toNat then do
      let dest ← store dest 0 0
      return (dest, { c with error := true })
    else do
      let copyLen :=
        if strLen.toNat ≥ maxDestLen then (maxDestLen + 4294967295) % 4294967296 else strLen.toNat
      let bytes ← loadRange data c.ptr copyLen
      let dest ← memcpy dest 0 bytes
      let dest ← store dest copyLen 0
      return (dest, { c with ptr := c.ptr + strLen.toNat, remaining := c.remaining - strLen.toNat })

end Calls

end RawCursor

/-! ## Runs of calls -/

/-- A `cursor_get_*` with its destination, which may hold anything. It has room for what the call
may write: `size` bytes, or `max_dest_len`, which is 1 at least. -/
inductive CursorCall where
  | u8
  | u16
  | u32
  | u64
  | bytes {n : Nat} (dest : Vector UInt8 n) (size : Nat) (room : size ≤ n)
  | pstr {n : Nat} (dest : Vector UInt8 n) (maxDestLen : Nat) (pos : 1 ≤ maxDestLen)
      (room : maxDestLen ≤ n)

/-- What a call returns, or leaves in its destination. -/
inductive CallResult where
  | number (val : Nat)
  | buffer (dest : List UInt8)
deriving DecidableEq, Repr

/-- The call. -/
def CursorCall.exec {len : Nat} (data : Vector UInt8 len) (c : RawCursor) :
    CursorCall → Except Fault (CallResult × RawCursor)
  | u8 => do
      let (val, c) ← c.getU8 data
      return (.number val.toNat, c)
  | u16 => do
      let (val, c) ← c.getU16 data
      return (.number val.toNat, c)
  | u32 => do
      let (val, c) ← c.getU32 data
      return (.number val.toNat, c)
  | u64 => do
      let (val, c) ← c.getU64 data
      return (.number val.toNat, c)
  | bytes dest size _ => do
      let (dest, c) ← c.getBytes data dest size
      return (.buffer dest.toList, c)
  | pstr dest maxDestLen _ _ => do
      let (dest, c) ← c.getPstr data dest maxDestLen
      return (.buffer dest.toList, c)

/-- A caller that goes on whatever a call has returned. -/
def cursorStep {len : Nat} (data : Vector UInt8 len) (s : Except Fault RawCursor)
    (call : CursorCall) : Except Fault RawCursor := do
  let c ← s
  let (_, c) ← call.exec data c
  return c

end MiniHF
