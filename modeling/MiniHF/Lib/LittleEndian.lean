/-!
# Little-endian numbers

`leBytes n v` writes the low `n` bytes of `v`, least significant first, and
`leValue` reads a byte list back. A value that needs more than `n` bytes is taken
modulo `256 ^ n`, as a store of a narrower integer type does.
-/

namespace LittleEndian

/-- The low `n` bytes of `v`. -/
def leBytes : Nat → Nat → List UInt8
  | 0, _ => []
  | n + 1, v => UInt8.ofNat v :: leBytes n (v / 256)

/-- The number a byte list stands for. -/
def leValue : List UInt8 → Nat
  | [] => 0
  | b :: bs => b.toNat + 256 * leValue bs

@[simp] theorem leBytes_length (n v : Nat) : (leBytes n v).length = n := by
  induction n generalizing v with
  | zero => rfl
  | succ n ih => simp [leBytes, ih]

/-- How many numbers `n` bytes can tell apart. -/
def leRange : Nat → Nat
  | 0 => 1
  | n + 1 => 256 * leRange n

theorem leRange_pos (n : Nat) : 0 < leRange n := by
  induction n with
  | zero => exact Nat.one_pos
  | succ n ih =>
      rw [leRange]
      omega

theorem leRange_mono {m n : Nat} (h : m ≤ n) : leRange m ≤ leRange n := by
  induction h with
  | refl => exact Nat.le_refl _
  | step _ ih =>
      rw [leRange]
      omega

theorem leValue_lt (bs : List UInt8) : leValue bs < leRange bs.length := by
  induction bs with
  | nil => exact Nat.one_pos
  | cons b bs ih =>
      have := b.toNat_lt
      rw [leValue, List.length_cons, leRange]
      omega

theorem leValue_leBytes (n v : Nat) : leValue (leBytes n v) = v % leRange n := by
  induction n generalizing v with
  | zero => exact (Nat.mod_one v).symm
  | succ n ih => rw [leBytes, leValue, ih, UInt8.toNat_ofNat', leRange, Nat.mod_mul]

theorem leBytes_leValue (bs : List UInt8) : leBytes bs.length (leValue bs) = bs := by
  induction bs with
  | nil => rfl
  | cons b bs ih =>
      have hb := b.toNat_lt
      rw [List.length_cons, leBytes, leValue,
        show (b.toNat + 256 * leValue bs) / 256 = leValue bs by omega, ih]
      congr 1
      apply UInt8.toNat_inj.mp
      rw [UInt8.toNat_ofNat']
      omega

end LittleEndian
