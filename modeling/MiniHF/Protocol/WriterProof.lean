import MiniHF.Protocol.FieldProof
import MiniHF.Protocol.Writer

/-!
# What a writer does to memory

A writer is on its buffer: in front of the pointer stand the bytes of the fields that
fitted, and everything else is as it was. A field that does not fit changes nothing but
the flag, so a smaller one behind it is still written, and the flag is all that says
that one is missing.
-/

namespace MiniHF

open Buffer LittleEndian

namespace PayloadField

/-- There is room for the field, and for the length of a string in its byte. -/
def fits (room : Nat) : PayloadField → Bool
  | pstr src => src.length ≤ 255 && 1 + src.length ≤ room
  | f => f.size ≤ room

/-- The `writer_put_*` for a field, in memory. -/
def rawPut {n : Nat} (w : RawWriter n) : PayloadField → Except Fault (RawWriter n)
  | u8 val => w.putU8 val
  | u16 val => w.putU16 val
  | u32 val => w.putU32 val
  | u64 val => w.putU64 val
  | bytes src => w.putBytes src
  | pstr src => w.putPstr src

theorem fits_size {room : Nat} {f : PayloadField} (h : f.fits room = true) : f.size ≤ room := by
  cases f with
  | pstr src => exact (of_decide_eq_true (Bool.and_eq_true_iff.mp h).2)
  | _ => exact of_decide_eq_true h

end PayloadField

/-- The puts for a list of fields, one after the other whatever becomes of them. -/
def rawPutFields {n : Nat} (w : RawWriter n) : List PayloadField → Except Fault (RawWriter n)
  | [] => .ok w
  | f :: fields => do
      let w ← f.rawPut w
      rawPutFields w fields

/-- The fields that find room, each in what those before it have left. -/
def accepted (room : Nat) : List PayloadField → List PayloadField
  | [] => []
  | f :: fields =>
      if f.fits room then f :: accepted (room - f.size) fields else accepted room fields

theorem accepted_sublist (room : Nat) (fields : List PayloadField) :
    (accepted room fields).Sublist fields := by
  induction fields generalizing room with
  | nil => exact List.Sublist.slnil
  | cons f fields ih =>
      rw [accepted]
      split
      · exact (ih _).cons_cons f
      · exact (ih _).cons f

/-- All are accepted only if the first one is. -/
theorem accepted_cons_ne {room : Nat} {f : PayloadField} {fields : List PayloadField}
    (h : f.fits room = false) : accepted room (f :: fields) ≠ f :: fields := by
  rw [accepted, h]
  intro heq
  have hle := (accepted_sublist room fields).length_le
  have hlen := congrArg List.length heq
  rw [if_neg Bool.false_ne_true, List.length_cons] at hlen
  omega

section OnBuffer

variable {n : Nat} {memory : Vector UInt8 n} {buffer len : Nat}

/-- The writer has written `bytes` into the buffer and nothing else into memory. -/
structure OnBuffer (memory : Vector UInt8 n) (buffer len : Nat) (bytes : List UInt8)
    (w : RawWriter n) : Prop where
  window : buffer + len ≤ n
  memory : w.memory.toList
    = memory.toList.take buffer ++ bytes ++ memory.toList.drop (buffer + bytes.length)
  ptr : w.ptr = buffer + bytes.length
  inside : w.ptr + w.remaining = buffer + len

theorem onBuffer_init (memory : Vector UInt8 n) (h : buffer + len ≤ n) :
    OnBuffer memory buffer len [] (RawWriter.init memory buffer len) where
  window := h
  memory := by
    rw [List.append_nil, List.length_nil, Nat.add_zero, List.take_append_drop]
    rfl
  ptr := rfl
  inside := rfl

/-- **Bytes that fit are stored behind the others.** -/
theorem OnBuffer.write {bytes : List UInt8} {w : RawWriter n} (h : OnBuffer memory buffer len bytes w)
    {src : List UInt8} (hfit : src.length ≤ w.remaining) :
    ∃ w', w.write src = .ok w' ∧ OnBuffer memory buffer len (bytes ++ src) w' ∧
      w'.error = w.error ∧ w'.remaining = w.remaining - src.length := by
  obtain ⟨hwindow, hmemory, hptr, hinside⟩ := h
  obtain ⟨memory', hcopy, hmemory'⟩ := @memcpy_eq _ _ w.memory w.ptr src (by omega)
  have hbuffer : (memory.toList.take buffer).length = buffer := by
    rw [List.length_take, Vector.length_toList]
    omega
  have hfront : (memory.toList.take buffer ++ bytes).length = w.ptr := by
    rw [List.length_append, hbuffer, hptr]
  have hwrite : w.write src
      = .ok ⟨memory', w.ptr + src.length, w.remaining - src.length, w.error⟩ := by
    rw [RawWriter.write, hcopy]
    rfl
  refine ⟨_, hwrite, ⟨hwindow, ?_, ?_, ?_⟩, rfl, rfl⟩
  · show memory'.toList = _
    rw [hmemory', hmemory, List.take_left' hfront, ← List.drop_drop,
      List.drop_left' hfront, List.drop_drop, List.length_append, ← Nat.add_assoc]
    rw [List.append_assoc (memory.toList.take buffer)]
  · show w.ptr + src.length = _
    rw [hptr, List.length_append, Nat.add_assoc]
  · show w.ptr + src.length + (w.remaining - src.length) = _
    omega

/-- A string is stored with its length in front, as bytes are. -/
theorem store_pstr (w : RawWriter n) (src : List UInt8) :
    (do
      let memory ← store w.memory w.ptr (UInt8.ofNat src.length)
      RawWriter.write { w with memory, ptr := w.ptr + 1, remaining := w.remaining - 1 } src)
      = w.write (PayloadField.pstr src).encoded := by
  show _ = (memcpy w.memory w.ptr (UInt8.ofNat src.length :: src) >>= _)
  rw [memcpy, bind_assoc]
  refine bind_congr fun memory' => ?_
  rw [RawWriter.write]
  refine bind_congr fun memory'' => ?_
  show Except.ok (RawWriter.mk memory'' (w.ptr + 1 + src.length)
    (w.remaining - 1 - src.length) w.error) = _
  rw [PayloadField.encoded_length, Nat.add_assoc, Nat.sub_sub]
  rfl

/-- What depends on room in the code depends on the field's fitting. -/
theorem if_fits {α : Type} (size remaining : Nat) (x y : α) :
    (if remaining < size then x else y) = if decide (size ≤ remaining) then y else x := by
  by_cases h : remaining < size
  · have hle : ¬ size ≤ remaining := by omega
    rw [if_pos h, if_neg (by simpa using hle)]
  · have hle : size ≤ remaining := by omega
    rw [if_neg h, if_pos (by simpa using hle)]

/-- For a string it depends on its length first. -/
theorem if_fits_pstr {α : Type} (remaining : Nat) (src : List UInt8) (x y : α) :
    (if src.length > 255 then x else if remaining < 1 + src.length then x else y)
      = if (PayloadField.pstr src).fits remaining then y else x := by
  show _ = if decide (src.length ≤ 255) && decide (1 + src.length ≤ remaining) then y else x
  by_cases hlong : src.length > 255
  · have hle : ¬ src.length ≤ 255 := by omega
    rw [if_pos hlong, decide_eq_false hle]
    rfl
  · have hle : src.length ≤ 255 := by omega
    rw [if_neg hlong, decide_eq_true hle, Bool.true_and]
    exact if_fits ..

/-- **What a put does**: it stores the bytes of a field that fits, and sets the flag otherwise. -/
theorem rawPut_eq (w : RawWriter n) (f : PayloadField) :
    f.rawPut w = if f.fits w.remaining then w.write f.encoded
      else .ok { w with error := true } := by
  cases f with
  | u8 val => exact if_fits 1 ..
  | u16 val => exact if_fits 2 ..
  | u32 val => exact if_fits 4 ..
  | u64 val => exact if_fits 8 ..
  | bytes src => exact if_fits src.length ..
  | pstr src =>
      rw [← store_pstr]
      exact if_fits_pstr w.remaining src ..

/-- So does the writer that has no memory. -/
theorem put_fits (bytes : List UInt8) (remaining : Nat) (error : Bool) (f : PayloadField) :
    f.put ⟨bytes, remaining, error⟩ = if f.fits remaining
      then ⟨bytes ++ f.encoded, remaining - f.size, error⟩ else ⟨bytes, remaining, true⟩ := by
  cases f with
  | u8 val => exact if_fits 1 ..
  | u16 val => exact if_fits 2 ..
  | u32 val => exact if_fits 4 ..
  | u64 val => exact if_fits 8 ..
  | bytes src => exact if_fits src.length ..
  | pstr src =>
      refine (if_fits_pstr remaining src ..).trans ?_
      rw [List.append_assoc, Nat.sub_sub]
      rfl

/-- A run of puts stores the fields that fit, and the flag says whether some did not. -/
theorem rawPutFields_onBuffer {bytes : List UInt8} {w : RawWriter n}
    (h : OnBuffer memory buffer len bytes w) (fields : List PayloadField) :
    ∃ w', rawPutFields w fields = .ok w' ∧
      OnBuffer memory buffer len
        (bytes ++ (accepted w.remaining fields).flatMap PayloadField.encoded) w' ∧
      (w'.error = true ↔ w.error = true ∨ accepted w.remaining fields ≠ fields) ∧
      putFields ⟨bytes, w.remaining, w.error⟩ fields
        = ⟨bytes ++ (accepted w.remaining fields).flatMap PayloadField.encoded,
            w'.remaining, w'.error⟩ := by
  induction fields generalizing bytes w with
  | nil =>
      rw [accepted, List.flatMap_nil, List.append_nil]
      exact ⟨w, rfl, h, (or_iff_left fun h => h rfl).symm, rfl⟩
  | cons f fields ih =>
      have hput := rawPut_eq w f
      have hput' := put_fits bytes w.remaining w.error f
      rw [rawPutFields, putFields, List.foldl_cons, ← putFields, hput']
      cases hfits : f.fits w.remaining with
      | false =>
          -- a field that does not fit is left out, and the flag stays set
          rw [hfits, if_neg Bool.false_ne_true] at hput
          obtain ⟨w', hrun, hbuffer, herror, hsame⟩ := @ih bytes { w with error := true }
            ⟨h.window, h.memory, h.ptr, h.inside⟩
          have hskip : accepted w.remaining (f :: fields) = accepted w.remaining fields := by
            rw [accepted, hfits, if_neg Bool.false_ne_true]
          refine ⟨w', by rw [hput, ok_bind, hrun], ?_, ?_, ?_⟩
          · rw [hskip]
            exact hbuffer
          · exact iff_of_true (herror.mpr (.inl rfl)) (.inr (accepted_cons_ne hfits))
          · rw [hskip]
            exact hsame
      | true =>
          rw [hfits, if_pos rfl] at hput
          have hroom : f.encoded.length ≤ w.remaining := by
            rw [f.encoded_length]
            exact PayloadField.fits_size hfits
          obtain ⟨w₁, hwrite, hbuffer₁, herror₁, hremaining⟩ := h.write hroom
          obtain ⟨w', hrun, hbuffer, herror, hsame⟩ := ih hbuffer₁
          rw [hremaining, f.encoded_length] at hbuffer herror hsame
          rw [herror₁] at hsame
          have htake : accepted w.remaining (f :: fields)
              = f :: accepted (w.remaining - f.size) fields := by
            rw [accepted, hfits, if_pos rfl]
          rw [htake, List.flatMap_cons, ← List.append_assoc]
          refine ⟨w', by rw [hput, hwrite, ok_bind, hrun], hbuffer, ?_, hsame⟩
          rw [herror, herror₁]
          exact or_congr_right (not_congr ⟨congrArg _, List.tail_eq_of_cons_eq⟩)

/--
**A writer keeps to its buffer**, whatever is put and whatever becomes of it.

Nothing is stored outside. Behind any puts, failed ones among them, the buffer starts
with the fields that found room, in order, and is otherwise as it was, as is the
memory around it; pointer and count say how far it has come, the flag whether a field
is missing. It is what the writer that has no memory would have come to.
-/
theorem writer_confined (memory : Vector UInt8 n) (h : buffer + len ≤ n)
    (fields : List PayloadField) :
    ∃ w, rawPutFields (RawWriter.init memory buffer len) fields = .ok w ∧
      OnBuffer memory buffer len ((accepted len fields).flatMap PayloadField.encoded) w ∧
      w.getLength buffer = ((accepted len fields).flatMap PayloadField.encoded).length ∧
      (w.error = true ↔ accepted len fields ≠ fields) ∧
      putFields (writerInit len) fields
        = ⟨(accepted len fields).flatMap PayloadField.encoded, w.remaining, w.error⟩ := by
  obtain ⟨w, hrun, hbuffer, herror, hsame⟩ :=
    rawPutFields_onBuffer (onBuffer_init memory h) fields
  refine ⟨w, hrun, hbuffer, ?_, ?_, hsame⟩
  · rw [RawWriter.getLength, hbuffer.ptr]
    exact Nat.add_sub_cancel_left ..
  · rw [herror]
    exact or_iff_right Bool.false_ne_true

end OnBuffer

/-- Four bytes in the middle of six: of three fields the second does not fit, the third does. -/
theorem writer_confined_middle :
    ∃ w, rawPutFields (RawWriter.init #v[9, 9, 9, 9, 9, 9] 1 4) [.u16 0x0102, .u32 7, .u8 5]
        = .ok w ∧ w.memory = #v[9, 2, 1, 5, 9, 9] ∧ w.getLength 1 = 3 ∧ w.error = true := by
  obtain ⟨w, hrun, hbuffer, hlength, herror, -⟩ :=
    writer_confined #v[9, 9, 9, 9, 9, 9] (show 1 + 4 ≤ 6 by decide) [.u16 0x0102, .u32 7, .u8 5]
  refine ⟨w, hrun, ?_, hlength, herror.mpr ?_⟩
  · exact Vector.toList_inj.mp (hbuffer.memory.trans rfl)
  · exact fun heq => absurd (congrArg List.length heq) (by decide)

end MiniHF
