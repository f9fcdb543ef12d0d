import MiniHF.Lib.Registers

/-!
# Chips on the bus

A driver reaches the registers of its chip by transfers. Each may fail, and a write
that fails may have brought some of its values. Some registers are the chip's own and
show what it likes; the others show what was written.
-/

namespace MiniHF

open Registers

/-- How a transfer ends: with zero or a negative errno. -/
structure Transfer where
  ret : Int
  /-- How many values the chip has taken of a write that failed. -/
  took : Nat
  /-- What a read shows of a register that is the chip's own, and of any if it failed. -/
  shown : UInt8
  nonpos : ret ≤ 0
deriving DecidableEq, Repr

def Transfer.done : Transfer := ⟨0, 0, 0, Int.le_refl 0⟩

/-- The registers of a chip and the transfers to come. -/
structure I2cChip where
  regs : UInt8 → UInt8
  /-- The next transfers; an empty list stands for success from then on. -/
  transfers : List Transfer

namespace I2cChip

/-- The register behind a register. -/
def behind (reg : UInt8) : UInt8 := reg + 1

def transfer (chip : I2cChip) : Transfer × I2cChip :=
  match chip.transfers with
  | [] => (.done, chip)
  | t :: transfers => (t, { chip with transfers })

/-- `i2c_write_dt`: a register, and the values for it and the ones behind it. -/
def writeDt (chip : I2cChip) (buf : List UInt8) : Int × I2cChip :=
  let (t, chip) := chip.transfer
  let taken := if t.ret = 0 then buf else buf.take (t.took + 1)
  (t.ret, { chip with regs := deliver behind chip.regs taken })

/-- `i2c_write_read_dt` of one register, which may be the chip's own. -/
def writeReadDt (chip : I2cChip) (volatile : UInt8 → Bool) (reg : UInt8) : Int × UInt8 × I2cChip :=
  let (t, chip) := chip.transfer
  (t.ret, if t.ret = 0 ∧ volatile reg = false then chip.regs reg else t.shown, chip)

/-- Messages go out one after another. -/
def sendAll (chip : I2cChip) (bufs : List (List UInt8)) : I2cChip :=
  bufs.foldl (fun chip buf => (chip.writeDt buf).2) chip

/-! ## What a transfer does -/

/-- How the next transfer ends. -/
def next (chip : I2cChip) : Transfer := chip.transfers.headD .done

theorem transfer_eq (chip : I2cChip) :
    chip.transfer = (chip.next, { chip with transfers := chip.transfers.tail }) := by
  obtain ⟨regs, transfers⟩ := chip
  cases transfers <;> rfl

/-- What of a message the chip takes. -/
def taken (t : Transfer) (buf : List UInt8) : List UInt8 :=
  if t.ret = 0 then buf else buf.take (t.took + 1)

theorem writeDt_eq (chip : I2cChip) (buf : List UInt8) :
    chip.writeDt buf = (chip.next.ret,
      ⟨deliver behind chip.regs (taken chip.next buf), chip.transfers.tail⟩) := by
  rw [writeDt, transfer_eq]
  rfl

theorem writeReadDt_eq (chip : I2cChip) (volatile : UInt8 → Bool) (reg : UInt8) :
    chip.writeReadDt volatile reg = (chip.next.ret,
      if chip.next.ret = 0 ∧ volatile reg = false then chip.regs reg else chip.next.shown,
      ⟨chip.regs, chip.transfers.tail⟩) := by
  rw [writeReadDt, transfer_eq]

/-- A message, also a torn one, stays in its span. -/
theorem writeDt_outside (chip : I2cChip) {reg r : UInt8} {values : List UInt8}
    (h : r ∉ span behind reg values.length) :
    (chip.writeDt (reg :: values)).2.regs r = chip.regs r := by
  rw [writeDt_eq]
  dsimp only
  rw [taken]
  split
  · rw [deliver, burst_outside h]
  · rw [deliver_outside _ h]

/-- A message that has gone through can be read back. -/
theorem writeDt_window (chip : I2cChip) {reg : UInt8} {values : List UInt8}
    (hspan : (span behind reg values.length).Nodup) (hret : (chip.writeDt (reg :: values)).1 = 0) :
    (span behind reg values.length).map (chip.writeDt (reg :: values)).2.regs = values := by
  rw [writeDt_eq] at hret ⊢
  dsimp only at hret ⊢
  rw [taken, if_pos hret, deliver]
  exact burst_window hspan

/-- What a register holds after one value was sent for it, or not. -/
theorem writeDt_one (chip : I2cChip) (reg value : UInt8) :
    (chip.writeDt [reg, value]).2.regs reg = value
      ∨ (chip.writeDt [reg, value]).2.regs reg = chip.regs reg := by
  rw [writeDt_eq]
  dsimp only
  rw [taken]
  split
  · exact Or.inl (write_self chip.regs reg value)
  · cases chip.next.took with
    | zero => exact Or.inr rfl
    | succ n =>
        rw [List.take_succ_cons, List.take_of_length_le (by simp)]
        exact Or.inl (write_self chip.regs reg value)

theorem writeDt_nonpos (chip : I2cChip) (buf : List UInt8) : (chip.writeDt buf).1 ≤ 0 := by
  rw [writeDt_eq]
  exact chip.next.nonpos

end I2cChip

end MiniHF
