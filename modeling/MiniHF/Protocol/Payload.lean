import MiniHF.Lib.Buffer
import MiniHF.Lib.LittleEndian

/-!
# `payload_utils.h`

A cursor reads a payload from the front; a writer fills a buffer from the front.
Neither goes past the end: a read or write that asks for more than is left sets
`error` and moves nothing. That the place of the cursor and what remains add up
to the buffer is a field.
-/

namespace MiniHF

open Buffer LittleEndian

/-- `payload_cursor_t`, over the buffer `ptr` points into. -/
structure PayloadCursor where
  data : List UInt8
  ptr : Nat
  remaining : Nat
  error : Bool
  /-- What was read and what remains are the buffer. -/
  inside : ptr + remaining = data.length

/-- `cursor_init`. -/
def cursorInit (data : List UInt8) : PayloadCursor where
  data
  ptr := 0
  remaining := data.length
  error := false
  inside := Nat.zero_add _

/-- A read of `n` bytes, as a little-endian number; 0 where fewer remain. -/
def cursorGet (n : Nat) (c : PayloadCursor) : Nat × PayloadCursor :=
  if h : c.remaining < n then (0, { c with error := true })
  else
    (leValue ((c.data.drop c.ptr).take n),
      { c with
        ptr := c.ptr + n
        remaining := c.remaining - n
        inside := by have := c.inside; omega })

/-- `cursor_get_u8`. -/
def cursorGetU8 (c : PayloadCursor) : UInt8 × PayloadCursor :=
  let (v, c) := cursorGet 1 c
  (UInt8.ofNat v, c)

/-- `cursor_get_u16`. -/
def cursorGetU16 (c : PayloadCursor) : UInt16 × PayloadCursor :=
  let (v, c) := cursorGet 2 c
  (UInt16.ofNat v, c)

/-- `cursor_get_u32`. -/
def cursorGetU32 (c : PayloadCursor) : UInt32 × PayloadCursor :=
  let (v, c) := cursorGet 4 c
  (UInt32.ofNat v, c)

/-- `cursor_get_u64`. -/
def cursorGetU64 (c : PayloadCursor) : UInt64 × PayloadCursor :=
  let (v, c) := cursorGet 8 c
  (UInt64.ofNat v, c)

/-- The cursor behind `n` bytes more. -/
def PayloadCursor.advance (c : PayloadCursor) (n : Nat) (h : n ≤ c.remaining) : PayloadCursor :=
  { c with
    ptr := c.ptr + n
    remaining := c.remaining - n
    inside := by have := c.inside; omega }

/-- `cursor_get_bytes`, into the buffer at `dest`. -/
def cursorGetBytes {n : Nat} (c : PayloadCursor) (dest : Vector UInt8 n) (size : Nat) :
    Except Fault (Vector UInt8 n × PayloadCursor) :=
  if h : c.remaining < size then do
    let dest ← memcpy dest 0 (List.replicate size 0)
    return (dest, { c with error := true })
  else do
    let dest ← memcpy dest 0 ((c.data.drop c.ptr).take size)
    return (dest, c.advance size (Nat.le_of_not_lt h))

/-- `cursor_get_pstr` behind the length. A `size_t` has 32 bits, so `max_dest_len - 1` is large
where that is 0. -/
def cursorGetPstrBody {n : Nat} (c : PayloadCursor) (dest : Vector UInt8 n)
    (maxDestLen strLen : Nat) : Except Fault (Vector UInt8 n × PayloadCursor) :=
  if h : c.remaining < strLen then do
    let dest ← store dest 0 0
    return (dest, { c with error := true })
  else do
    let copyLen := if strLen ≥ maxDestLen then (maxDestLen + 4294967295) % 4294967296 else strLen
    let dest ← memcpy dest 0 ((c.data.drop c.ptr).take copyLen)
    let dest ← store dest copyLen 0
    return (dest, c.advance strLen (Nat.le_of_not_lt h))

/-- `cursor_get_pstr`, into the buffer at `dest`. -/
def cursorGetPstr {n : Nat} (c : PayloadCursor) (dest : Vector UInt8 n) (maxDestLen : Nat) :
    Except Fault (Vector UInt8 n × PayloadCursor) :=
  if h : c.remaining < 1 then do
    let dest ← store dest 0 0
    return (dest, { c with error := true })
  else
    cursorGetPstrBody (c.advance 1 (Nat.le_of_not_lt h)) dest maxDestLen
      (c.data.getD c.ptr 0).toNat

/-- `payload_writer_t`: what stands before `ptr`, and what remains behind it. -/
structure PayloadWriter where
  written : List UInt8
  remaining : Nat
  error : Bool
deriving DecidableEq, Repr

/-- `writer_init`, for a buffer of `len` bytes. -/
def writerInit (len : Nat) : PayloadWriter where
  written := []
  remaining := len
  error := false

/-- Write the low `n` bytes of `v`, least significant first. -/
def writerPut (n : Nat) (w : PayloadWriter) (v : Nat) : PayloadWriter :=
  if w.remaining < n then { w with error := true }
  else { w with written := w.written ++ leBytes n v, remaining := w.remaining - n }

/-- `writer_put_u8`. -/
def writerPutU8 (w : PayloadWriter) (val : UInt8) : PayloadWriter := writerPut 1 w val.toNat

/-- `writer_put_u16`. -/
def writerPutU16 (w : PayloadWriter) (val : UInt16) : PayloadWriter := writerPut 2 w val.toNat

/-- `writer_put_u32`. -/
def writerPutU32 (w : PayloadWriter) (val : UInt32) : PayloadWriter := writerPut 4 w val.toNat

/-- `writer_put_u64`. -/
def writerPutU64 (w : PayloadWriter) (val : UInt64) : PayloadWriter := writerPut 8 w val.toNat

/-- `writer_put_bytes`; `src` are the `size` bytes it is given. -/
def writerPutBytes (w : PayloadWriter) (src : List UInt8) : PayloadWriter :=
  if w.remaining < src.length then { w with error := true }
  else { w with written := w.written ++ src, remaining := w.remaining - src.length }

/-- `writer_put_pstr`; `src` are the characters in front of the NUL. -/
def writerPutPstr (w : PayloadWriter) (src : List UInt8) : PayloadWriter :=
  let len := src.length
  if len > 255 then { w with error := true }
  else if w.remaining < 1 + len then { w with error := true }
  else
    { w with
      written := w.written ++ [UInt8.ofNat len] ++ src
      remaining := w.remaining - 1 - len }

@[simp] theorem cursorInit_remaining (data : List UInt8) :
    (cursorInit data).remaining = data.length := rfl

end MiniHF
