import MiniHF.Protocol.Cursor

/-!
# Any calls in any order

The cursor over memory does what the cursor of `PayloadCursor` does, whose place and
what remains add up by construction. So nothing is read outside the payload, and
what is consumed and what remains stay the payload, whatever the calls are and
whatever the bytes say about the length of a string.

The flag is set by the calls that ask for more than is left and cleared by none. A
run of calls ends with the flag set exactly if one of them did.
-/

namespace MiniHF

open Buffer LittleEndian Runs

/-! ## The cursor over memory is the cursor -/

/-- What `payload_cursor_t` holds of a cursor. -/
def PayloadCursor.raw (c : PayloadCursor) : RawCursor where
  ptr := c.ptr
  remaining := c.remaining
  error := c.error

section Refine

variable {len n : Nat} {data : Vector UInt8 len} {c : PayloadCursor}

/-- Bytes that remain are there. -/
theorem loadRange_remaining (h : data.toList = c.data) {k : Nat} (hk : k ≤ c.remaining) :
    loadRange data c.ptr k = .ok ((c.data.drop c.ptr).take k) := by
  have hin := c.inside
  have hlen : data.toList.length = len := Vector.length_toList
  rw [h] at hlen
  rw [loadRange_eq data (by omega), h]

theorem raw_get (h : data.toList = c.data) (size : Nat) :
    c.raw.get data size = .ok ((cursorGet size c).1, (cursorGet size c).2.raw) := by
  unfold RawCursor.get cursorGet
  by_cases hshort : c.remaining < size
  · rw [if_pos (by exact hshort), dif_pos hshort]
    rfl
  · have hread := loadRange_remaining h (Nat.le_of_not_lt hshort)
    rw [if_neg (by exact hshort), dif_neg hshort]
    show (loadRange data c.ptr size >>= _) = _
    rw [hread, ok_bind]
    rfl

theorem raw_getU8 (h : data.toList = c.data) :
    c.raw.getU8 data = .ok ((cursorGetU8 c).1, (cursorGetU8 c).2.raw) := by
  rw [RawCursor.getU8, raw_get h]
  rfl

theorem raw_getU16 (h : data.toList = c.data) :
    c.raw.getU16 data = .ok ((cursorGetU16 c).1, (cursorGetU16 c).2.raw) := by
  rw [RawCursor.getU16, raw_get h]
  rfl

theorem raw_getU32 (h : data.toList = c.data) :
    c.raw.getU32 data = .ok ((cursorGetU32 c).1, (cursorGetU32 c).2.raw) := by
  rw [RawCursor.getU32, raw_get h]
  rfl

theorem raw_getU64 (h : data.toList = c.data) :
    c.raw.getU64 data = .ok ((cursorGetU64 c).1, (cursorGetU64 c).2.raw) := by
  rw [RawCursor.getU64, raw_get h]
  rfl

/-- What a call with a destination leaves, the cursor as it is in memory. -/
def rawResult (r : Vector UInt8 n × PayloadCursor) : Except Fault (Vector UInt8 n × RawCursor) :=
  .ok (r.1, r.2.raw)

theorem raw_getBytes (h : data.toList = c.data) (dest : Vector UInt8 n) (size : Nat) :
    c.raw.getBytes data dest size = cursorGetBytes c dest size >>= rawResult := by
  unfold RawCursor.getBytes cursorGetBytes
  by_cases hshort : c.remaining < size
  · rw [if_pos (by exact hshort), dif_pos hshort, bind_assoc]
    rfl
  · have hread := loadRange_remaining h (Nat.le_of_not_lt hshort)
    rw [if_neg (by exact hshort), dif_neg hshort, bind_assoc]
    show (loadRange data c.ptr size >>= _) = _
    rw [hread, ok_bind]
    rfl

theorem load_remaining (h : data.toList = c.data) (hpos : 1 ≤ c.remaining) :
    load data c.ptr = .ok (c.data.getD c.ptr 0) := by
  have hin := c.inside
  have hlen : data.toList.length = len := Vector.length_toList
  rw [h] at hlen
  have hlt : c.ptr < len := by omega
  rw [load_eq data hlt, get_getD data hlt 0, h]

/-- What is copied of a string is no more than its characters. -/
theorem copyLen_le {strLen maxDestLen : Nat} (hlen : strLen ≤ 255) (hpos : 1 ≤ maxDestLen) :
    (if strLen ≥ maxDestLen then (maxDestLen + 4294967295) % 4294967296 else strLen) ≤ strLen ∧
      (if strLen ≥ maxDestLen then (maxDestLen + 4294967295) % 4294967296 else strLen)
        < maxDestLen := by
  split <;> omega

theorem raw_getPstr (h : data.toList = c.data) (dest : Vector UInt8 n) {maxDestLen : Nat}
    (hpos : 1 ≤ maxDestLen) :
    c.raw.getPstr data dest maxDestLen = cursorGetPstr c dest maxDestLen >>= rawResult := by
  unfold RawCursor.getPstr cursorGetPstr
  by_cases hnone : c.remaining < 1
  · rw [if_pos (by exact hnone), dif_pos hnone, bind_assoc]
    rfl
  · rw [if_neg (by exact hnone), dif_neg hnone]
    show (load data c.ptr >>= _) = _
    rw [load_remaining h (by omega), ok_bind]
    -- the length has 8 bits
    have hlen : (c.data.getD c.ptr 0).toNat ≤ 255 := Nat.le_of_lt_succ (UInt8.toNat_lt _)
    generalize (c.data.getD c.ptr 0).toNat = strLen at hlen
    have hcopy := (copyLen_le hlen hpos).1
    unfold cursorGetPstrBody
    dsimp only
    generalize hd : c.advance 1 (Nat.le_of_not_lt hnone) = d
    have hdata : data.toList = d.data := by rw [← hd]; exact h
    have hptr : c.raw.ptr + 1 = d.ptr := by rw [← hd]; rfl
    have hremaining : c.raw.remaining - 1 = d.remaining := by rw [← hd]; rfl
    rw [hptr, hremaining]
    by_cases hshort : d.remaining < strLen
    · rw [if_pos hshort, dif_pos hshort, bind_assoc]
      subst hd
      rfl
    · rw [if_neg hshort, dif_neg hshort, loadRange_remaining hdata (by omega), ok_bind]
      simp only [bind_assoc]
      subst hd
      rfl

end Refine

/-! ## What a call promises -/

/-- The size of a read that has one before it is made. -/
def CursorCall.fixedSize : CursorCall → Option Nat
  | u8 => some 1
  | u16 => some 2
  | u32 => some 4
  | u64 => some 8
  | bytes _ size _ => some size
  | pstr .. => none

/-- How many bytes a call asks for; a string asks for the byte of its length and for what that
says. -/
def CursorCall.asked {len : Nat} (data : Vector UInt8 len) (c : RawCursor) (call : CursorCall) :
    Nat :=
  call.fixedSize.getD (1 + (data.toList.getD c.ptr 0).toNat)

/-- What a call yields that finds what it asks for: these bytes, or the characters of a string as
far as there is room, with a 0 behind them. -/
def CursorCall.yields {len : Nat} (data : Vector UInt8 len) (c : RawCursor) :
    CursorCall → List UInt8
  | pstr _ maxDestLen _ _ =>
      (data.toList.drop (c.ptr + 1)).take
        (min (data.toList.getD c.ptr 0).toNat (maxDestLen - 1)) ++ [0]
  | call => (data.toList.drop c.ptr).take (call.asked data c)

/-- A result that is the number of these bytes, or starts with them. -/
def CallResult.Holds (bytes : List UInt8) : CallResult → Prop
  | number val => val = leValue bytes
  | buffer dest => bytes <+: dest

/-- A result of `size` bytes that is zero. -/
def CallResult.Zero (size : Nat) : CallResult → Prop
  | number val => val = 0
  | buffer dest => dest.take size = List.replicate size 0

/-- `dest'` is `dest` with a terminated string in its first `maxDestLen` places. -/
structure Terminated (maxDestLen : Nat) (dest dest' : List UInt8) : Prop where
  behind : dest'.drop maxDestLen = dest.drop maxDestLen
  zero : 0 ∈ dest'.take maxDestLen

/-- A call that reads a string leaves one, in the room it was given. -/
def CursorCall.KeepsString : CursorCall → CallResult → Prop
  | pstr dest maxDestLen _ _, .buffer dest' => Terminated maxDestLen dest.toList dest'
  | pstr .., .number _ => False
  | _, _ => True

/-- What a call that takes the cursor from `c` to `c'` promises. -/
structure CallSafe {len : Nat} (data : Vector UInt8 len) (c : RawCursor) (call : CursorCall)
    (result : CallResult) (c' : RawCursor) : Prop where
  /-- The flag is set by asking for more than is left, and stays. -/
  flag : c'.error = true ↔ c.error = true ∨ c.remaining < call.asked data c
  /-- A fixed-size read that fails consumes nothing and yields zero. -/
  failed : ∀ size, call.fixedSize = some size → c.remaining < size →
    c'.ptr = c.ptr ∧ c'.remaining = c.remaining ∧ result.Zero size
  /-- A call that finds what it asks for consumes it, and yields it. -/
  succeeded : call.asked data c ≤ c.remaining →
    c'.ptr = c.ptr + call.asked data c ∧ c'.remaining = c.remaining - call.asked data c
      ∧ result.Holds (call.yields data c)
  string : call.KeepsString result

section Promise

variable {len n : Nat} {data : Vector UInt8 len} {c : PayloadCursor}

@[simp] theorem cursorGet_data (size : Nat) : (cursorGet size c).2.data = c.data := by
  unfold cursorGet
  split <;> rfl

theorem cursorGet_short {size : Nat} (h : c.remaining < size) :
    cursorGet size c = (0, { c with error := true }) := by
  unfold cursorGet
  rw [dif_pos h]

theorem cursorGet_enough {size : Nat} (h : size ≤ c.remaining) :
    cursorGet size c = (leValue ((c.data.drop c.ptr).take size), c.advance size h) := by
  unfold cursorGet
  rw [dif_neg (Nat.not_lt.mpr h)]
  rfl

theorem cursorGet_error (size : Nat) :
    (cursorGet size c).2.error = true ↔ c.error = true ∨ c.remaining < size := by
  by_cases hshort : c.remaining < size
  · rw [cursorGet_short hshort]
    exact iff_of_true rfl (.inr hshort)
  · unfold cursorGet
    rw [dif_neg hshort]
    exact (or_iff_left hshort).symm

/-- The cursor is where a number of that size would have left it. -/
theorem cursorGetBytes_eq (dest : Vector UInt8 n) {size : Nat} (room : size ≤ n) :
    ∃ dest', cursorGetBytes c dest size = .ok (dest', (cursorGet size c).2) ∧
      (c.remaining < size → Written dest' (List.replicate size 0)) ∧
      (size ≤ c.remaining → Written dest' ((c.data.drop c.ptr).take size)) := by
  unfold cursorGetBytes cursorGet
  by_cases hshort : c.remaining < size
  · have hzeros : (List.replicate size (0 : UInt8)).length ≤ n := by rwa [List.length_replicate]
    obtain ⟨dest', hcopy, hw⟩ := memcpy_start dest hzeros
    rw [dif_pos hshort, dif_pos hshort, hcopy]
    exact ⟨dest', rfl, fun _ => hw, fun h => absurd hshort (Nat.not_lt.mpr h)⟩
  · have hle : ((c.data.drop c.ptr).take size).length ≤ size := List.length_take_le ..
    obtain ⟨dest', hcopy, hw⟩ := memcpy_start dest (Nat.le_trans hle room)
    rw [dif_neg hshort, dif_neg hshort, hcopy]
    exact ⟨dest', rfl, fun h => absurd h hshort, fun _ => hw⟩

/-- Characters with a 0 behind them are a terminated string. -/
theorem store_terminated (dest : Vector UInt8 n) (chars : List UInt8) {maxDestLen : Nat}
    (hfit : chars.length < maxDestLen) (room : maxDestLen ≤ n) :
    ∃ dest₁ dest', memcpy dest 0 chars = .ok dest₁ ∧ store dest₁ chars.length 0 = .ok dest' ∧
      Terminated maxDestLen dest.toList dest'.toList ∧ Written dest' (chars ++ [0]) := by
  obtain ⟨dest₁, dest', hcopy, hstore, hw⟩ :=
    memcpy_start_store dest 0 (Nat.lt_of_lt_of_le hfit room)
  refine ⟨dest₁, dest', hcopy, hstore, ⟨?_, ?_⟩, hw⟩
  · rw [store_behind hstore hfit, memcpy_behind hcopy (by omega)]
  · have hlen : (chars ++ [0]).length ≤ maxDestLen := by
      rw [List.length_append]
      exact hfit
    have htake : chars ++ [0] <+: dest'.toList.take maxDestLen := List.prefix_take_iff.mpr ⟨hw, hlen⟩
    exact htake.subset (by simp)

/-- The empty string. -/
theorem store_empty (dest : Vector UInt8 n) {maxDestLen : Nat} (hpos : 1 ≤ maxDestLen)
    (room : maxDestLen ≤ n) :
    ∃ dest', store dest 0 0 = .ok dest' ∧ Terminated maxDestLen dest.toList dest'.toList := by
  obtain ⟨dest₁, dest', hcopy, hstore, hstring, -⟩ := store_terminated dest [] hpos room
  cases hcopy
  exact ⟨dest', hstore, hstring⟩

/-- What `cursor_get_pstr` leaves where the string is short of characters or all there. -/
theorem cursorGetPstrBody_eq (dest : Vector UInt8 n) {maxDestLen strLen : Nat}
    (hpos : 1 ≤ maxDestLen) (room : maxDestLen ≤ n) (hlen : strLen ≤ 255) :
    ∃ dest' c', cursorGetPstrBody c dest maxDestLen strLen = .ok (dest', c') ∧ c'.data = c.data ∧
      (c'.error = true ↔ c.error = true ∨ c.remaining < strLen) ∧
      Terminated maxDestLen dest.toList dest'.toList ∧
      (strLen ≤ c.remaining → c'.ptr = c.ptr + strLen ∧ c'.remaining = c.remaining - strLen ∧
        Written dest' ((c.data.drop c.ptr).take (min strLen (maxDestLen - 1)) ++ [0])) := by
  unfold cursorGetPstrBody
  by_cases hshort : c.remaining < strLen
  · obtain ⟨dest', hstore, hstring⟩ := store_empty dest hpos room
    rw [dif_pos hshort, hstore]
    exact ⟨dest', _, rfl, rfl, iff_of_true rfl (.inr hshort), hstring,
      fun h => absurd hshort (Nat.not_lt.mpr h)⟩
  · obtain ⟨hle, hfit⟩ := copyLen_le hlen hpos
    have hmin : (if strLen ≥ maxDestLen then (maxDestLen + 4294967295) % 4294967296 else strLen)
        = min strLen (maxDestLen - 1) := by
      split <;> omega
    rw [dif_neg hshort]
    dsimp only
    generalize (if strLen ≥ maxDestLen then (maxDestLen + 4294967295) % 4294967296 else strLen)
      = copyLen at hle hfit hmin
    subst hmin
    -- the characters are there, so as many are copied as are asked for
    have hcopied : ((c.data.drop c.ptr).take (min strLen (maxDestLen - 1))).length
        = min strLen (maxDestLen - 1) := by
      have hin := c.inside
      rw [List.length_take, List.length_drop]
      omega
    obtain ⟨dest₁, dest', hcopy, hstore, hstring, hw⟩ := store_terminated dest
      ((c.data.drop c.ptr).take (min strLen (maxDestLen - 1))) (by rwa [hcopied]) room
    rw [hcopied] at hstore
    rw [hcopy, ok_bind, hstore]
    exact ⟨dest', _, rfl, rfl, (or_iff_left hshort).symm, hstring, fun _ => ⟨rfl, rfl, hw⟩⟩

theorem cursorGetPstr_eq (dest : Vector UInt8 n) {maxDestLen : Nat} (hpos : 1 ≤ maxDestLen)
    (room : maxDestLen ≤ n) :
    ∃ dest' c', cursorGetPstr c dest maxDestLen = .ok (dest', c') ∧ c'.data = c.data ∧
      (c'.error = true ↔ c.error = true ∨ c.remaining < 1 + (c.data.getD c.ptr 0).toNat) ∧
      Terminated maxDestLen dest.toList dest'.toList ∧
      (1 + (c.data.getD c.ptr 0).toNat ≤ c.remaining →
        c'.ptr = c.ptr + (1 + (c.data.getD c.ptr 0).toNat) ∧
        c'.remaining = c.remaining - (1 + (c.data.getD c.ptr 0).toNat) ∧
        Written dest' ((c.data.drop (c.ptr + 1)).take
          (min (c.data.getD c.ptr 0).toNat (maxDestLen - 1)) ++ [0])) := by
  unfold cursorGetPstr
  by_cases hnone : c.remaining < 1
  · obtain ⟨dest', hstore, hstring⟩ := store_empty dest hpos room
    rw [dif_pos hnone, hstore]
    exact ⟨dest', _, rfl, rfl, iff_of_true rfl (.inr (by omega)), hstring, fun h => by omega⟩
  · have hlen : (c.data.getD c.ptr 0).toNat ≤ 255 := Nat.le_of_lt_succ (UInt8.toNat_lt _)
    obtain ⟨dest', c', hbody, hdata, herror, hstring, hread⟩ :=
      @cursorGetPstrBody_eq _ (c.advance 1 (Nat.le_of_not_lt hnone)) dest maxDestLen _ hpos room hlen
    rw [dif_neg hnone, hbody]
    refine ⟨dest', c', rfl, hdata, ?_, hstring, fun h => ?_⟩
    · rw [herror]
      show c.error = true ∨ c.remaining - 1 < _ ↔ _
      refine or_congr_right ?_
      omega
    · -- behind the length, the body finds as much as it says
      have hrest : (c.data.getD c.ptr 0).toNat ≤ c.remaining - 1 := by omega
      obtain ⟨hptr, hremaining, hw⟩ := hread hrest
      refine ⟨hptr.trans (Nat.add_assoc ..), hremaining.trans ?_, hw⟩
      show c.remaining - 1 - _ = _
      omega

/-- A fixed-size read leaves the cursor where a number of its size does. -/
theorem safe_fixed {call : CursorCall} {size : Nat} {result : CallResult}
    (hsize : call.fixedSize = some size) (hstring : call.KeepsString result)
    (hzero : c.remaining < size → result.Zero size)
    (hread : size ≤ c.remaining → result.Holds (call.yields data c.raw)) :
    CallSafe data c.raw call result (cursorGet size c).2.raw where
  flag := by
    rw [CursorCall.asked, hsize, Option.getD_some]
    exact cursorGet_error size
  failed := by
    intro size' hsize' hshort
    obtain rfl : size = size' := Option.some.inj (hsize.symm.trans hsize')
    rw [cursorGet_short hshort]
    exact ⟨rfl, rfl, hzero hshort⟩
  succeeded := by
    rw [CursorCall.asked, hsize, Option.getD_some]
    intro henough
    rw [cursorGet_enough henough]
    exact ⟨rfl, rfl, hread henough⟩
  string := hstring

/-- A fixed-size read yields bytes of the payload. -/
theorem yields_fixed (h : data.toList = c.data) {call : CursorCall} {size : Nat}
    (hsize : call.fixedSize = some size) :
    call.yields data c.raw = (c.data.drop c.ptr).take size := by
  rw [← h]
  cases call with
  | pstr dest maxDestLen pos room => cases hsize
  | u8 => cases hsize; rfl
  | u16 => cases hsize; rfl
  | u32 => cases hsize; rfl
  | u64 => cases hsize; rfl
  | bytes dest size' room => cases hsize; rfl

/-- A call that returns what `ofNat` makes of the number `cursorGet` reads. -/
theorem exec_number (h : data.toList = c.data) (ofNat : Nat → Nat) {call : CursorCall} {size : Nat}
    (hexec : call.exec data c.raw
      = .ok (.number (ofNat (cursorGet size c).1), (cursorGet size c).2.raw))
    (hsize : call.fixedSize = some size) (hstring : ∀ val, call.KeepsString (.number val))
    (hfits : ∀ v, v < leRange size → ofNat v = v) :
    ∃ result c', call.exec data c.raw = .ok (result, PayloadCursor.raw c') ∧
      data.toList = c'.data ∧ CallSafe data c.raw call result c'.raw := by
  refine ⟨_, _, hexec, ?_, safe_fixed hsize (hstring _) ?_ ?_⟩
  · rw [cursorGet_data, h]
  · intro hshort
    rw [cursorGet_short hshort]
    exact hfits 0 (leRange_pos size)
  · intro henough
    have hlength : ((c.data.drop c.ptr).take size).length = size := by
      have hin := c.inside
      rw [List.length_take, List.length_drop]
      omega
    rw [yields_fixed h hsize, cursorGet_enough henough]
    -- bytes of the type's size are a number of the type
    refine hfits _ ?_
    have hlt := leValue_lt ((c.data.drop c.ptr).take size)
    rwa [hlength] at hlt

/-- **Any call on any cursor comes through and keeps its promises.** -/
theorem exec_safe (h : data.toList = c.data) (call : CursorCall) :
    ∃ result c', call.exec data c.raw = .ok (result, PayloadCursor.raw c') ∧
      data.toList = c'.data ∧ CallSafe data c.raw call result c'.raw := by
  cases call with
  | u8 =>
      refine exec_number h (fun v => (UInt8.ofNat v).toNat) ?_ rfl (fun _ => trivial) ?_
      · rw [CursorCall.exec, raw_getU8 h]
        rfl
      · exact fun v hv => UInt8.toNat_ofNat_of_lt hv
  | u16 =>
      refine exec_number h (fun v => (UInt16.ofNat v).toNat) ?_ rfl (fun _ => trivial) ?_
      · rw [CursorCall.exec, raw_getU16 h]
        rfl
      · exact fun v hv => UInt16.toNat_ofNat_of_lt hv
  | u32 =>
      refine exec_number h (fun v => (UInt32.ofNat v).toNat) ?_ rfl (fun _ => trivial) ?_
      · rw [CursorCall.exec, raw_getU32 h]
        rfl
      · exact fun v hv => UInt32.toNat_ofNat_of_lt hv
  | u64 =>
      refine exec_number h (fun v => (UInt64.ofNat v).toNat) ?_ rfl (fun _ => trivial) ?_
      · rw [CursorCall.exec, raw_getU64 h]
        rfl
      · exact fun v hv => UInt64.toNat_ofNat_of_lt hv
  | bytes dest size room =>
      obtain ⟨dest', hbytes, hzero, hread⟩ := cursorGetBytes_eq dest room
      refine ⟨.buffer dest'.toList, (cursorGet size c).2, ?_, ?_, safe_fixed rfl trivial ?_ ?_⟩
      · rw [CursorCall.exec, raw_getBytes h, hbytes]
        rfl
      · rw [cursorGet_data, h]
      · intro hshort
        have htake := (hzero hshort).take
        rwa [List.length_replicate] at htake
      · intro henough
        rw [yields_fixed h rfl]
        exact hread henough
  | pstr dest maxDestLen pos room =>
      obtain ⟨dest', c', hpstr, hdata, herror, hstring, hread⟩ := cursorGetPstr_eq dest pos room
      refine ⟨.buffer dest'.toList, c', ?_, h.trans hdata.symm, ?_, ?_, ?_, hstring⟩
      · rw [CursorCall.exec, raw_getPstr h dest pos, hpstr]
        rfl
      · rw [CursorCall.asked, h]
        exact herror
      · intro size hsize
        cases hsize
      · rw [CursorCall.asked, CursorCall.yields, h]
        exact hread

end Promise

/-! ## Runs -/

section Run

variable {len : Nat} (data : Vector UInt8 len)

/-- What is consumed and what remains are the payload, and nothing has been read or written
outside. -/
def Accounted (len : Nat) (s : Except Fault RawCursor) : Prop :=
  ∃ c, s = .ok c ∧ c.ptr + c.remaining = len

def Flagged (s : Except Fault RawCursor) : Prop := ∃ c, s = .ok c ∧ c.error = true

/-- The call asks for more than is left. -/
def Short (s : Except Fault RawCursor) (call : CursorCall) : Prop :=
  ∃ c, s = .ok c ∧ c.remaining < call.asked data c

/-- The call comes through and keeps its promises. -/
def Safe (s : Except Fault RawCursor) (call : CursorCall) : Prop :=
  ∃ c result c', s = .ok c ∧ call.exec data c = .ok (result, c') ∧ CallSafe data c call result c'

/-- A state of the cursor over memory that is one of the cursor. -/
def OnPayload (s : Except Fault RawCursor) : Prop :=
  ∃ c : PayloadCursor, s = .ok c.raw ∧ data.toList = c.data

theorem onPayload_init : OnPayload data (.ok (RawCursor.init len)) := by
  refine ⟨cursorInit data.toList, ?_, rfl⟩
  show Except.ok (RawCursor.init len) = .ok (RawCursor.init data.toList.length)
  rw [Vector.length_toList]

variable {data} {s : Except Fault RawCursor}

theorem OnPayload.accounted (h : OnPayload data s) : Accounted len s := by
  obtain ⟨c, rfl, hdata⟩ := h
  refine ⟨c.raw, rfl, ?_⟩
  show c.ptr + c.remaining = len
  rw [c.inside, ← hdata, Vector.length_toList]

theorem OnPayload.safe (h : OnPayload data s) (call : CursorCall) : Safe data s call := by
  obtain ⟨c, rfl, hdata⟩ := h
  obtain ⟨result, c', hexec, -, hsafe⟩ := exec_safe hdata call
  exact ⟨c.raw, result, c'.raw, rfl, hexec, hsafe⟩

/-- One call: the cursor stays on the payload, and the flag is set by asking for too much. -/
theorem cursorStep_onPayload (h : OnPayload data s) (call : CursorCall) :
    OnPayload data (cursorStep data s call) ∧
      (Flagged (cursorStep data s call) ↔ Flagged s ∨ Short data s call) := by
  obtain ⟨c, rfl, hdata⟩ := h
  obtain ⟨result, c', hexec, hdata', hsafe⟩ := exec_safe hdata call
  have hstep : cursorStep data (.ok c.raw) call = .ok c'.raw := by
    rw [cursorStep, ok_bind, hexec]
    rfl
  rw [hstep]
  refine ⟨⟨c', rfl, hdata'⟩, ?_⟩
  simpa [Flagged, Short] using hsafe.flag

/--
**Whatever the payload is and whatever is called**, failed calls among them: the
bytes consumed and the bytes that remain are the payload after every call, no
access is outside, every call keeps its promises, so that one which finds what it
asks for yields and consumes just that, and at the end the flag is set exactly if
some call asked for more than was left.
-/
theorem cursor_safety {len : Nat} (data : Vector UInt8 len) (calls : List CursorCall) :
    Throughout (cursorStep data) (Accounted len) (.ok (RawCursor.init len)) calls ∧
      Along (cursorStep data) (Safe data) (.ok (RawCursor.init len)) calls ∧
      (Flagged (run (cursorStep data) (.ok (RawCursor.init len)) calls) ↔
        ∃ before call after, calls = before ++ call :: after ∧
          Short data (run (cursorStep data) (.ok (RawCursor.init len)) before) call) := by
  have hstep := fun s call (h : OnPayload data s) => (cursorStep_onPayload h call).1
  have hflag := fun s call (h : OnPayload data s) => (cursorStep_onPayload h call).2
  have hinit := onPayload_init data
  refine ⟨?_, ?_, ?_⟩
  · exact throughout_mono (fun _ h => h.accounted) (throughout_of_invariant hstep hinit calls)
  · exact along_of_invariant hstep (fun _ call h => h.safe call) hinit calls
  · have hclear : ¬ Flagged (.ok (RawCursor.init len)) := by
      rintro ⟨c, hc, herror⟩
      cases hc
      cases herror
    rw [run_flag_iff hstep hflag hinit calls]
    exact or_iff_right hclear

end Run

/-- A string that says 5 characters, with one left: the byte of its length stays consumed. -/
example : cursorStep #v[5, 65] (.ok (RawCursor.init 2)) (.pstr #v[1, 1] 2 (by decide) (by decide))
    = .ok { ptr := 1, remaining := 1, error := true } := rfl

end MiniHF
