import Mathlib.Data.List.Forall2
import MiniHF.Protocol.PayloadProof

/-!
# Fields of a payload

A payload is fields one behind the other: numbers of four widths, byte blocks, and
strings behind their length. Each has its bytes, a put writes them if they fit, and
a get in front of them reads the field and stops behind them. So the gets that match
a list of fields read what the puts have written.
-/

namespace MiniHF

open Buffer LittleEndian

/-- A field and its value. -/
inductive PayloadField where
  | u8 (val : UInt8)
  | u16 (val : UInt16)
  | u32 (val : UInt32)
  | u64 (val : UInt64)
  | bytes (src : List UInt8)
  | pstr (src : List UInt8)

namespace PayloadField

/-- A string has at most 255 characters and no NUL among them. -/
def Valid : PayloadField → Prop
  | pstr src => src.length ≤ 255 ∧ ∀ c ∈ src, c ≠ 0
  | _ => True

/-- The bytes of a field. -/
def encoded : PayloadField → List UInt8
  | u8 val => leBytes 1 val.toNat
  | u16 val => leBytes 2 val.toNat
  | u32 val => leBytes 4 val.toNat
  | u64 val => leBytes 8 val.toNat
  | bytes src => src
  | pstr src => UInt8.ofNat src.length :: src

/-- How many bytes a field takes. -/
def size : PayloadField → Nat
  | u8 _ => 1
  | u16 _ => 2
  | u32 _ => 4
  | u64 _ => 8
  | bytes src => src.length
  | pstr src => 1 + src.length

theorem encoded_length (f : PayloadField) : f.encoded.length = f.size := by
  cases f with
  | u8 val => exact leBytes_length 1 _
  | u16 val => exact leBytes_length 2 _
  | u32 val => exact leBytes_length 4 _
  | u64 val => exact leBytes_length 8 _
  | bytes src => rfl
  | pstr src => exact Nat.add_comm _ _

/-- The `writer_put_*` for a field. -/
def put (w : PayloadWriter) : PayloadField → PayloadWriter
  | u8 val => writerPutU8 w val
  | u16 val => writerPutU16 w val
  | u32 val => writerPutU32 w val
  | u64 val => writerPutU64 w val
  | bytes src => writerPutBytes w src
  | pstr src => writerPutPstr w src

/-- **A put writes the bytes of the field if they fit**, and sets the error otherwise. -/
theorem put_eq {f : PayloadField} (h : f.Valid) (w : PayloadWriter) :
    f.put w = if w.remaining < f.size then { w with error := true }
      else { w with written := w.written ++ f.encoded, remaining := w.remaining - f.size } := by
  cases f with
  | u8 val => rfl
  | u16 val => rfl
  | u32 val => rfl
  | u64 val => rfl
  | bytes src => rfl
  | pstr src =>
      unfold put writerPutPstr size encoded
      dsimp only
      rw [if_neg (Nat.not_lt.mpr h.1), List.append_assoc, Nat.sub_sub]
      rfl

end PayloadField

/-! ## Writing -/

/-- The puts for a list of fields. -/
def putFields (w : PayloadWriter) (fields : List PayloadField) : PayloadWriter :=
  fields.foldl PayloadField.put w

/-- How many bytes a list of fields takes. -/
def totalSize : List PayloadField → Nat
  | [] => 0
  | f :: fields => f.size + totalSize fields

/-- **Fields that fit are written one behind the other.** -/
theorem putFields_fit {fields : List PayloadField} (hvalid : ∀ f ∈ fields, f.Valid)
    {w : PayloadWriter} (h : totalSize fields ≤ w.remaining) :
    putFields w fields = { w with
      written := w.written ++ fields.flatMap PayloadField.encoded
      remaining := w.remaining - totalSize fields } := by
  induction fields generalizing w with
  | nil =>
      rw [List.flatMap_nil, List.append_nil]
      rfl
  | cons f fields ih =>
      obtain ⟨hf, hfields⟩ := List.forall_mem_cons.mp hvalid
      rw [totalSize] at h ⊢
      have hput := PayloadField.put_eq hf w
      rw [if_neg (by omega)] at hput
      rw [putFields, List.foldl_cons, hput, ← putFields, ih hfields (by dsimp only; omega),
        List.flatMap_cons, List.append_assoc, Nat.sub_sub]

/-- An error stays. -/
theorem putFields_error {fields : List PayloadField} (hvalid : ∀ f ∈ fields, f.Valid)
    {w : PayloadWriter} (h : w.error = true) : (putFields w fields).error = true := by
  induction fields generalizing w with
  | nil => exact h
  | cons f fields ih =>
      obtain ⟨hf, hfields⟩ := List.forall_mem_cons.mp hvalid
      rw [putFields, List.foldl_cons, ← putFields]
      apply ih hfields
      rw [PayloadField.put_eq hf]
      split
      · rfl
      · exact h

/-- **Fields that do not fit leave an error.** -/
theorem putFields_overflow {fields : List PayloadField} (hvalid : ∀ f ∈ fields, f.Valid)
    {w : PayloadWriter} (h : w.remaining < totalSize fields) :
    (putFields w fields).error = true := by
  induction fields generalizing w with
  | nil => exact absurd h (Nat.not_lt_zero _)
  | cons f fields ih =>
      obtain ⟨hf, hfields⟩ := List.forall_mem_cons.mp hvalid
      have hput := PayloadField.put_eq hf w
      rw [totalSize] at h
      rw [putFields, List.foldl_cons, ← putFields, hput]
      by_cases hshort : w.remaining < f.size
      · rw [if_pos hshort]
        exact putFields_error hfields rfl
      · rw [if_neg hshort]
        exact ih hfields (by dsimp only; omega)

/-! ## Reading -/

/-- A `cursor_get_*` with its destination, which may hold anything. -/
inductive PayloadRead where
  | u8
  | u16
  | u32
  | u64
  | bytes {n : Nat} (dest : Vector UInt8 n) (size : Nat)
  | pstr {n : Nat} (dest : Vector UInt8 n) (maxDestLen : Nat)

/-- The string in a buffer. -/
def stringAt {n : Nat} (dest : Vector UInt8 n) : List UInt8 := dest.toList.takeWhile (· != 0)

namespace PayloadRead

/-- The call, and the field it reads. -/
def get (c : PayloadCursor) : PayloadRead → Except Fault (PayloadField × PayloadCursor)
  | u8 => .ok (.u8 (cursorGetU8 c).1, (cursorGetU8 c).2)
  | u16 => .ok (.u16 (cursorGetU16 c).1, (cursorGetU16 c).2)
  | u32 => .ok (.u32 (cursorGetU32 c).1, (cursorGetU32 c).2)
  | u64 => .ok (.u64 (cursorGetU64 c).1, (cursorGetU64 c).2)
  | bytes dest size => do
      let (dest, c) ← cursorGetBytes c dest size
      return (.bytes (dest.toList.take size), c)
  | pstr dest maxDestLen => do
      let (dest, c) ← cursorGetPstr c dest maxDestLen
      return (.pstr (stringAt dest), c)

/-- The call for a field: of its kind, with its size, and with more room than the string needs. -/
def Matches : PayloadRead → PayloadField → Prop
  | u8, .u8 _ => True
  | u16, .u16 _ => True
  | u32, .u32 _ => True
  | u64, .u64 _ => True
  | @bytes n _ size, .bytes src => size = src.length ∧ size ≤ n
  | @pstr n _ maxDestLen, .pstr src => src.length < maxDestLen ∧ src.length < n
  | _, _ => False

end PayloadRead

/-- The gets, in order. -/
def getFields (c : PayloadCursor) : List PayloadRead →
    Except Fault (List PayloadField × PayloadCursor)
  | [] => .ok ([], c)
  | read :: reads => do
      let (f, c) ← read.get c
      let (fields, c) ← getFields c reads
      return (f :: fields, c)

/-! ## What was written is read -/

section Reading

variable {data rest : List UInt8} {k : Nat}

theorem advance_at (hk : k ≤ data.length) {n : Nat} (h : k + n ≤ data.length) :
    (cursorAt data k hk).advance n (by show n ≤ data.length - k; omega) = cursorAt data (k + n) h := by
  simp only [PayloadCursor.advance, cursorAt, Nat.sub_sub]

/-- Behind a prefix there are as many bytes as it is long. -/
theorem inside_of_drop (hk : k ≤ data.length) {front : List UInt8}
    (hdata : data.drop k = front ++ rest) : k + front.length ≤ data.length := by
  have hlen := congrArg List.length hdata
  rw [List.length_drop, List.length_append] at hlen
  omega

theorem drop_add {front : List UInt8} (hdata : data.drop k = front ++ rest) :
    data.drop (k + front.length) = rest := by
  rw [← List.drop_drop, hdata, List.drop_left]

/-- A number is read back. -/
theorem cursorGet_encoded (hk : k ≤ data.length) {n v : Nat} (hv : v < leRange n)
    (hdata : data.drop k = leBytes n v ++ rest) :
    ∃ h, cursorGet n (cursorAt data k hk) = (v, cursorAt data (k + n) h) := by
  have h := inside_of_drop hk hdata
  rw [leBytes_length] at h
  refine ⟨h, ?_⟩
  rw [cursorGet_at h, hdata, List.take_left' (leBytes_length n v), leValue_leBytes,
    Nat.mod_eq_of_lt hv]

/-- A number field is read back: `field` is made of what `ofNat` takes from the bytes. -/
theorem get_number {α : Type} (ofNat : Nat → α) (field : α → PayloadField) (hk : k ≤ data.length)
    {read : PayloadRead} {n v : Nat} {val : α} (hback : ofNat v = val) (hv : v < leRange n)
    (hdata : data.drop k = leBytes n v ++ rest)
    (hread : ∀ c, read.get c = .ok (field (ofNat (cursorGet n c).1), (cursorGet n c).2)) :
    ∃ h, read.get (cursorAt data k hk) = .ok (field val, cursorAt data (k + n) h) := by
  obtain ⟨h, hget⟩ := cursorGet_encoded hk hv hdata
  refine ⟨h, ?_⟩
  rw [hread, hget, hback]

theorem cursorGetBytes_encoded (hk : k ≤ data.length) {src : List UInt8}
    (hdata : data.drop k = src ++ rest) {n : Nat} (dest : Vector UInt8 n) (hroom : src.length ≤ n) :
    ∃ h dest', cursorGetBytes (cursorAt data k hk) dest src.length
        = .ok (dest', cursorAt data (k + src.length) h) ∧ dest'.toList.take src.length = src := by
  have h := inside_of_drop hk hdata
  have hleft : ¬ (cursorAt data k hk).remaining < src.length := by
    show ¬ data.length - k < src.length
    omega
  have hbytes : ((cursorAt data k hk).data.drop (cursorAt data k hk).ptr).take src.length = src := by
    show (data.drop k).take src.length = src
    rw [hdata, List.take_left]
  obtain ⟨dest', hcopy, hw⟩ := memcpy_start dest hroom
  refine ⟨h, dest', ?_, hw.take⟩
  rw [cursorGetBytes, dif_neg hleft, hbytes, hcopy, ok_bind, advance_at hk h]
  rfl

/-- A NUL ends the string in front of it. -/
theorem stringAt_written {n : Nat} {dest : Vector UInt8 n} {src : List UInt8}
    (h : Written dest (src ++ [0])) (hsrc : ∀ c ∈ src, c ≠ 0) : stringAt dest = src := by
  obtain ⟨t, ht⟩ := h
  unfold stringAt
  rw [← ht, List.append_assoc, List.takeWhile_append_of_pos (by simpa using hsrc)]
  exact List.append_nil src

theorem cursorGetPstr_encoded (hk : k ≤ data.length) {src : List UInt8}
    (hvalid : (PayloadField.pstr src).Valid)
    (hdata : data.drop k = UInt8.ofNat src.length :: src ++ rest) {n maxDestLen : Nat}
    (dest : Vector UInt8 n) (hmax : src.length < maxDestLen) (hroom : src.length < n) :
    ∃ h dest', cursorGetPstr (cursorAt data k hk) dest maxDestLen
        = .ok (dest', cursorAt data (k + (1 + src.length)) h) ∧ stringAt dest' = src := by
  have h := inside_of_drop hk hdata
  rw [List.length_cons] at h
  have hone : k + 1 ≤ data.length := by omega
  have hend : k + 1 + src.length ≤ data.length := by omega
  -- the byte in front is the length, which has 8 bits
  have hlen : (data.getD k 0).toNat = src.length := by
    have hget : data[k]? = some (UInt8.ofNat src.length) := by
      rw [← List.head?_drop, hdata]
      rfl
    rw [List.getD_eq_getElem?_getD, hget, Option.getD_some, UInt8.toNat_ofNat']
    exact Nat.mod_eq_of_lt (Nat.lt_succ_of_le hvalid.1)
  have hleft : ¬ (cursorAt data k hk).remaining < 1 := by
    show ¬ data.length - k < 1
    omega
  have hleft' : ¬ (cursorAt data (k + 1) hone).remaining < src.length := by
    show ¬ data.length - (k + 1) < src.length
    omega
  have hbytes : ((cursorAt data (k + 1) hone).data.drop (cursorAt data (k + 1) hone).ptr).take
      src.length = src := by
    show (data.drop (k + 1)).take src.length = src
    rw [← List.drop_drop, hdata, List.cons_append, List.drop_succ_cons, List.drop_zero,
      List.take_left]
  obtain ⟨dest₁, dest₂, hcopy, hstore, hw⟩ := memcpy_start_store dest 0 hroom
  refine ⟨by omega, dest₂, ?_, stringAt_written hw hvalid.2⟩
  have hbyte : (cursorAt data k hk).data.getD (cursorAt data k hk).ptr 0 = data.getD k 0 := rfl
  have hfar : ¬ src.length ≥ maxDestLen := Nat.not_le.mpr hmax
  rw [cursorGetPstr, dif_neg hleft, hbyte, hlen, advance_at hk hone, cursorGetPstrBody, dif_neg hleft',
    if_neg hfar]
  dsimp only
  rw [hbytes, hcopy, ok_bind, hstore, ok_bind, advance_at hone hend]
  simp only [Nat.add_assoc]
  rfl

/-- **A get in front of the bytes of its field reads the field.** -/
theorem get_encoded (hk : k ≤ data.length) {read : PayloadRead} {f : PayloadField}
    (hmatch : read.Matches f) (hvalid : f.Valid) (hdata : data.drop k = f.encoded ++ rest) :
    ∃ h, read.get (cursorAt data k hk) = .ok (f, cursorAt data (k + f.size) h) := by
  cases f with
  | u8 val =>
      cases read <;> try exact hmatch.elim
      exact get_number UInt8.ofNat .u8 hk UInt8.ofNat_toNat val.toNat_lt hdata (fun _ => rfl)
  | u16 val =>
      cases read <;> try exact hmatch.elim
      exact get_number UInt16.ofNat .u16 hk UInt16.ofNat_toNat val.toNat_lt hdata (fun _ => rfl)
  | u32 val =>
      cases read <;> try exact hmatch.elim
      exact get_number UInt32.ofNat .u32 hk UInt32.ofNat_toNat val.toNat_lt hdata (fun _ => rfl)
  | u64 val =>
      cases read <;> try exact hmatch.elim
      exact get_number UInt64.ofNat .u64 hk UInt64.ofNat_toNat val.toNat_lt hdata (fun _ => rfl)
  | bytes src =>
      cases read <;> try exact hmatch.elim
      next n dest size =>
        obtain ⟨rfl, hroom⟩ := hmatch
        obtain ⟨h, dest', hget, htake⟩ := @cursorGetBytes_encoded _ _ _ hk src hdata _ dest hroom
        refine ⟨h, ?_⟩
        rw [PayloadRead.get, hget, ok_bind]
        dsimp only
        rw [htake]
        rfl
  | pstr src =>
      cases read <;> try exact hmatch.elim
      next n dest maxDestLen =>
        obtain ⟨hmax, hroom⟩ := hmatch
        obtain ⟨h, dest', hget, hstring⟩ :=
          cursorGetPstr_encoded hk hvalid hdata dest hmax hroom
        refine ⟨h, ?_⟩
        rw [PayloadRead.get, hget, ok_bind]
        dsimp only
        rw [hstring]
        rfl

/-- **The matching gets read the fields**, one behind the other. -/
theorem getFields_encoded {reads : List PayloadRead} {fields : List PayloadField}
    (hmatch : List.Forall₂ PayloadRead.Matches reads fields) (hvalid : ∀ f ∈ fields, f.Valid)
    (hk : k ≤ data.length) (hdata : data.drop k = fields.flatMap PayloadField.encoded ++ rest) :
    ∃ h, getFields (cursorAt data k hk) reads
      = .ok (fields, cursorAt data (k + totalSize fields) h) := by
  induction hmatch generalizing k with
  | nil => exact ⟨hk, rfl⟩
  | @cons read f reads fields hread _ ih =>
      obtain ⟨hf, hfields⟩ := List.forall_mem_cons.mp hvalid
      rw [List.flatMap_cons, List.append_assoc] at hdata
      obtain ⟨h, hget⟩ := get_encoded hk hread hf hdata
      have hbehind := drop_add hdata
      rw [PayloadField.encoded_length] at hbehind
      obtain ⟨h', hrest⟩ := ih hfields h hbehind
      rw [Nat.add_assoc] at h'
      refine ⟨h', ?_⟩
      rw [getFields, hget, ok_bind]
      dsimp only
      rw [hrest, ok_bind]
      simp only [totalSize, Nat.add_assoc]
      rfl

end Reading

theorem flatMap_encoded_length (fields : List PayloadField) :
    (fields.flatMap PayloadField.encoded).length = totalSize fields := by
  induction fields with
  | nil => rfl
  | cons f fields ih =>
      rw [List.flatMap_cons, List.length_append, PayloadField.encoded_length, ih, totalSize]

/--
**Writer and cursor are inverse.**

Fields that fit a buffer are written to it without an error, and the matching gets
read them from what was written, to its last byte and without an error. Fields that
do not fit leave an error in the writer.
-/
theorem fields_round_trip {fields : List PayloadField} (hvalid : ∀ f ∈ fields, f.Valid) (len : Nat) :
    (totalSize fields ≤ len →
      (putFields (writerInit len) fields).error = false ∧
      ∀ reads, List.Forall₂ PayloadRead.Matches reads fields →
        ∃ c, getFields (cursorInit (putFields (writerInit len) fields).written) reads
            = .ok (fields, c) ∧ c.error = false ∧ c.remaining = 0) ∧
    (len < totalSize fields → (putFields (writerInit len) fields).error = true) := by
  constructor
  · intro hfit
    have hput := @putFields_fit fields hvalid (writerInit len) hfit
    have hlen := flatMap_encoded_length fields
    have hwritten : (putFields (writerInit len) fields).written
        = fields.flatMap PayloadField.encoded := by
      rw [hput]
      rfl
    refine ⟨by rw [hput]; rfl, ?_⟩
    intro reads hmatch
    rw [hwritten, cursorInit_eq]
    obtain ⟨h, hget⟩ := @getFields_encoded _ [] 0 _ _ hmatch hvalid (Nat.zero_le _)
      (List.append_nil (fields.flatMap PayloadField.encoded)).symm
    refine ⟨_, hget, rfl, ?_⟩
    show (fields.flatMap PayloadField.encoded).length - (0 + totalSize fields) = 0
    omega
  · intro hover
    exact @putFields_overflow fields hvalid (writerInit len) hover

/-- A number, a block and a string, in a buffer of nine bytes. -/
theorem fields_round_trip_nine :
    let fields := [.u16 513, .bytes [0, 0], .pstr (['C', 'Q'].map Char.toUInt8)]
    (putFields (writerInit 9) fields).error = false ∧
      ∃ c, getFields (cursorInit (putFields (writerInit 9) fields).written)
          [.u16, .bytes (Vector.replicate 2 7) 2, .pstr (Vector.replicate 4 7) 4]
        = .ok (fields, c) ∧ c.error = false ∧ c.remaining = 0 := by
  have hvalid : ∀ f ∈ [.u16 513, .bytes [0, 0], .pstr (['C', 'Q'].map Char.toUInt8)],
      PayloadField.Valid f := by
    intro f hf
    rcases List.mem_cons.mp hf with rfl | hf
    · trivial
    rcases List.mem_cons.mp hf with rfl | hf
    · trivial
    rw [List.mem_singleton.mp hf]
    have hall : (['C', 'Q'].map Char.toUInt8).all (· != 0) = true := rfl
    exact ⟨by decide, fun c hc => bne_iff_ne.mp (List.all_eq_true.mp hall c hc)⟩
  obtain ⟨herror, hread⟩ := (fields_round_trip hvalid 9).1 (by decide)
  exact ⟨herror, hread _ (.cons trivial (.cons ⟨rfl, by decide⟩
    (.cons ⟨by decide, by decide⟩ .nil)))⟩

end MiniHF
