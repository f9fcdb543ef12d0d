import MiniHF.Protocol.Payload

/-!
# What a cursor reads and a writer writes

`cursorAt` is the cursor behind the first `k` bytes. A read of `n` bytes that are
there gives their value and the cursor behind them, so a handler that reads a
payload from the front reads it at fixed offsets.
-/

namespace MiniHF

open LittleEndian

/-- The cursor behind the first `k` bytes. -/
def cursorAt (data : List UInt8) (k : Nat) (h : k ≤ data.length) : PayloadCursor where
  data
  ptr := k
  remaining := data.length - k
  error := false
  inside := by omega

theorem cursorInit_eq (data : List UInt8) : cursorInit data = cursorAt data 0 (Nat.zero_le _) := rfl

@[simp] theorem cursorAt_error (data : List UInt8) (k : Nat) (h : k ≤ data.length) :
    (cursorAt data k h).error = false := rfl

/-- **A read of bytes that are there.** -/
theorem cursorGet_at {data : List UInt8} {k n : Nat} (h : k + n ≤ data.length) :
    cursorGet n (cursorAt data k (by omega))
      = (leValue ((data.drop k).take n), cursorAt data (k + n) h) := by
  have hroom : ¬ (cursorAt data k (by omega)).remaining < n := by
    show ¬ data.length - k < n
    omega
  rw [cursorGet, dif_neg hroom]
  simp only [cursorAt, Nat.sub_sub]

theorem cursorGetU8_at {data : List UInt8} {k : Nat} (h : k + 1 ≤ data.length) :
    cursorGetU8 (cursorAt data k (by omega)) = (data.getD k 0, cursorAt data (k + 1) h) := by
  have hk : k < data.length := by omega
  have hbyte : (data.drop k).take 1 = [data.getD k 0] := by
    rw [List.drop_eq_getElem_cons hk, List.take_succ_cons, List.take_zero,
      List.getD_eq_getElem?_getD, List.getElem?_eq_getElem hk]
    rfl
  rw [cursorGetU8, cursorGet_at h, hbyte]
  dsimp only [leValue]
  rw [Nat.mul_zero, Nat.add_zero, UInt8.ofNat_toNat]

theorem cursorGetU16_at {data : List UInt8} {k : Nat} (h : k + 2 ≤ data.length) :
    cursorGetU16 (cursorAt data k (by omega))
      = (UInt16.ofNat (leValue ((data.drop k).take 2)), cursorAt data (k + 2) h) := by
  rw [cursorGetU16, cursorGet_at h]

theorem cursorGetU32_at {data : List UInt8} {k : Nat} (h : k + 4 ≤ data.length) :
    cursorGetU32 (cursorAt data k (by omega))
      = (UInt32.ofNat (leValue ((data.drop k).take 4)), cursorAt data (k + 4) h) := by
  rw [cursorGetU32, cursorGet_at h]

theorem cursorGetU64_at {data : List UInt8} {k : Nat} (h : k + 8 ≤ data.length) :
    cursorGetU64 (cursorAt data k (by omega))
      = (UInt64.ofNat (leValue ((data.drop k).take 8)), cursorAt data (k + 8) h) := by
  rw [cursorGetU64, cursorGet_at h]

/-- A write that fits goes behind what has been written. -/
theorem writerPut_room {n : Nat} {w : PayloadWriter} (v : Nat) (h : n ≤ w.remaining) :
    writerPut n w v = { w with
      written := w.written ++ leBytes n v, remaining := w.remaining - n } := by
  rw [writerPut, if_neg (by omega)]

end MiniHF
