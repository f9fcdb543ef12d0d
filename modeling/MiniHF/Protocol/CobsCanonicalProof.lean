import MiniHF.Protocol.CobsProof

/-!
# Which frames the COBS decoder accepts

The decoder reads any list of whole blocks. The encoder would have written the same
blocks, with one exception: behind a full block, and for no data at all, it ends on
an empty block, and the decoder does without it.
-/

namespace MiniHF

open Buffer Stuffing

/-- A run of `cobs_decode` on `y` reaches the end, with the result `x`. -/
def Decoded (y x : List UInt8) : Prop :=
  ∃ (n : Nat) (output output' : Vector UInt8 n),
    cobsDecode y output = .ok (some x.length, output') ∧ Written output' x

/-- Every run of `cobs_decode` on `y` does, wherever the buffer is long enough. -/
def Decodes (y x : List UInt8) : Prop :=
  ∀ (n : Nat) (output : Vector UInt8 n), x.length ≤ n →
    ∃ output', cobsDecode y output = .ok (some x.length, output') ∧ Written output' x

/-- Every run of `cobs_encode` on `x` writes `y`, wherever the buffer is long enough. -/
def Encodes (x y : List UInt8) : Prop :=
  ∀ (n : Nat) (output : Vector UInt8 n), y.length ≤ n →
    ∃ output', cobsEncode x output = .ok (y.length, output') ∧ Written output' y

/-- Whole blocks, the last of them a full one. -/
def EndsFull (y : List UInt8) : Prop :=
  ∃ front block, y = front ++ 0xFF :: block ∧ block.length = 254 ∧ ∃ x, Decoded front x

/-! ## Runs and forms -/

theorem encodes_cobs (x : List UInt8) : Encodes x (cobs x) := fun _ output hle =>
  cobsEncode_spec x output hle

theorem Encodes.eq {x y : List UInt8} (h : Encodes x y) : y = cobs x := by
  let n := max y.length (cobs x).length
  let output : Vector UInt8 n := Vector.replicate n 0
  obtain ⟨out₁, hrun₁, hw₁⟩ := h n output (Nat.le_max_left _ _)
  obtain ⟨out₂, hrun₂, hw₂⟩ := cobsEncode_spec x output (Nat.le_max_right _ _)
  rw [hrun₁, Except.ok.injEq, Prod.mk.injEq] at hrun₂
  obtain ⟨hlen, rfl⟩ := hrun₂
  exact (List.prefix_of_prefix_length_le hw₁ hw₂ (Nat.le_of_eq hlen)).eq_of_length hlen

theorem decodes_of_unstuff {y x : List UInt8} (h : unstuff cobsCoding y = some x) : Decodes y x := by
  intro n output hle
  have hspec := (cobsDecode_spec y output).1
  rw [decodeTrace_of_unstuff h] at hspec
  exact hspec hle

theorem Decoded.unstuff_eq {y x : List UInt8} (h : Decoded y x) : unstuff cobsCoding y = some x := by
  obtain ⟨n, output, output', hrun, hw⟩ := h
  obtain ⟨hfits, hover⟩ := cobsDecode_spec y output
  rcases Nat.lt_or_ge n (decodeTrace y).1.length with hlt | hle
  · rw [hover hlt] at hrun
    cases hrun
  · obtain ⟨out₁, hrun₁, hw₁⟩ := hfits hle
    rw [hrun₁, Except.ok.injEq, Prod.mk.injEq] at hrun
    obtain ⟨hlen, rfl⟩ := hrun
    rw [unstuff_eq_trace]
    split at hlen
    · next hend =>
        have hlen := Option.some.inj hlen
        rw [if_pos hend, (List.prefix_of_prefix_length_le hw₁ hw (Nat.le_of_eq hlen)).eq_of_length hlen]
    · cases hlen

theorem decoded_of_unstuff {y x : List UInt8} (h : unstuff cobsCoding y = some x) : Decoded y x := by
  obtain ⟨output', hrun, hw⟩ :=
    decodes_of_unstuff h x.length (Vector.replicate x.length 0) (Nat.le_refl _)
  exact ⟨_, _, _, hrun, hw⟩

theorem parse_of_decoded {y x : List UInt8} (h : Decoded y x) :
    ∃ rs, parse cobsCoding y = some rs := by
  obtain ⟨rs, hrs, -⟩ := Option.map_eq_some_iff.mp h.unstuff_eq
  exact ⟨rs, hrs⟩

/-! ## Full blocks -/

theorem cobsCoding_full : cobsCoding.code 254 = 0xFF := rfl

theorem endsFull_emit {rs : List (List UInt8)} {r : List UInt8}
    (hw : WellRun 0 254 (rs ++ [r])) (hfull : r.length = 254) :
    EndsFull (emit cobsCoding (rs ++ [r])) := by
  -- the blocks in front of the last one are a frame of their own
  have hfront : WellRun 0 254 rs :=
    ⟨fun q hq => hw.clean q (List.mem_append_left _ hq),
      fun q hq => hw.short q (List.mem_append_left _ hq)⟩
  have hdec : unstuff cobsCoding (emit cobsCoding rs) = some (join 0 254 rs) := by
    rw [unstuff, parse_emit cobsCoding hfront, Option.map_some]
  refine ⟨emit cobsCoding rs, r, ?_, hfull, _, decoded_of_unstuff hdec⟩
  rw [emit_append, emit, emit, List.append_nil, hfull, cobsCoding_full]

/-- Its blocks. -/
theorem EndsFull.parse {y : List UInt8} (h : EndsFull y) :
    ∃ rs r, parse cobsCoding y = some (rs ++ [r]) ∧ r.length = 254 := by
  obtain ⟨front, block, rfl, hlen, x, hdec⟩ := h
  obtain ⟨rs, hrs⟩ := parse_of_decoded hdec
  have hvalue : cobsCoding.value 0xFF = block.length := by rw [hlen]; rfl
  have hblock : Stuffing.parse cobsCoding (0xFF :: block) = some [block] := by
    rw [Stuffing.parse, if_neg (by decide), hvalue, if_neg (Nat.lt_irrefl _), List.drop_length,
      List.take_length, Stuffing.parse]
    rfl
  exact ⟨rs, block, parse_append cobsCoding hrs hblock, hlen⟩

/-! ## Accepted frames -/

/-- The encoder would write one more block, an empty one, behind these. -/
def LeavesOut (y : List UInt8) : Prop := y = [] ∨ EndsFull y

/-- What the decoder accepts is what the encoder writes, but for the last block. -/
theorem encodes_of_decoded {y x : List UInt8} (hz : 0 ∉ y) (hdec : Decoded y x) :
    cobs x = y ∨ (LeavesOut y ∧ cobs x = y ++ [0x01]) := by
  rcases stuff_of_unstuff cobsCoding (by decide) hz hdec.unstuff_eq with heq | ⟨heq, hend⟩
  · exact .inl heq
  · refine .inr ⟨?_, heq⟩
    rcases hend with hnil | ⟨rs, r, rfl, hw, hfull⟩
    · exact .inl hnil
    · exact .inr (endsFull_emit hw hfull)

theorem decodes_of_leavesOut {w x : List UInt8} (h : LeavesOut w) (henc : cobs x = w ++ [0x01]) :
    Decodes w x := by
  have hblocks : ∃ rs, parse cobsCoding w = some rs ∧ ∀ qs r, rs = qs ++ [r] → r.length = 254 := by
    rcases h with rfl | hfull
    · refine ⟨[], by rw [parse], ?_⟩
      intro qs r hnil
      simp at hnil
    · obtain ⟨rs, r, hrs, hlen⟩ := hfull.parse
      refine ⟨_, hrs, ?_⟩
      intro qs r' heq
      have hlast : r = r' := by simpa using congrArg List.getLast? heq
      rw [← hlast, hlen]
  obtain ⟨rs, hrs, hlast⟩ := hblocks
  exact decodes_of_unstuff (unstuff_omitted cobsCoding (by decide) hrs hlast henc)

/--
**Only canonical frames decode, up to one trailing byte.**

Where `cobs_decode` gets to the end of a frame without a zero, `cobs_encode` writes
that frame from the result, or that frame and a `0x01` behind no block or a full one.
Two frames with one result differ by such a `0x01` at most, and a frame that an
encoder has left it out of is decoded like the one with it.
-/
theorem canonical_frames {y x : List UInt8} (hz : 0 ∉ y) (hdec : Decoded y x) :
    (Encodes x y ∨ (LeavesOut y ∧ Encodes x (y ++ [0x01]))) ∧
      (∀ y', 0 ∉ y' → Decoded y' x → y' = y ∨ (LeavesOut y ∧ y' = y ++ [0x01]) ∨
        (LeavesOut y' ∧ y = y' ++ [0x01])) ∧
      ∀ w, LeavesOut w → Encodes x (w ++ [0x01]) → Decodes w x := by
  have hform := encodes_of_decoded hz hdec
  refine ⟨?_, ?_, ?_⟩
  · rcases hform with heq | ⟨hend, heq⟩
    · left
      rw [← heq]
      exact encodes_cobs x
    · right
      refine ⟨hend, ?_⟩
      rw [← heq]
      exact encodes_cobs x
  · intro y' hz' hdec'
    rcases hform with heq | ⟨hend, heq⟩
    · rcases encodes_of_decoded hz' hdec' with heq' | ⟨hend', heq'⟩
      · exact .inl (heq'.symm.trans heq)
      · exact .inr (.inr ⟨hend', heq.symm.trans heq'⟩)
    · rcases encodes_of_decoded hz' hdec' with heq' | ⟨hend', heq'⟩
      · exact .inr (.inl ⟨hend, heq'.symm.trans heq⟩)
      · exact .inl (List.append_cancel_right (heq'.symm.trans heq))
  · intro w hend henc
    exact decodes_of_leavesOut hend henc.eq.symm

/-- A block of two bytes, and an empty one for the zero behind them. -/
theorem canonical_frames_zero :
    (Encodes [17, 34, 0] [3, 17, 34, 1] ∨
        (LeavesOut [3, 17, 34, 1] ∧ Encodes [17, 34, 0] ([3, 17, 34, 1] ++ [0x01]))) ∧
      (∀ y', 0 ∉ y' → Decoded y' [17, 34, 0] → y' = [3, 17, 34, 1] ∨
        (LeavesOut [3, 17, 34, 1] ∧ y' = [3, 17, 34, 1] ++ [0x01]) ∨
        (LeavesOut y' ∧ [3, 17, 34, 1] = y' ++ [0x01])) ∧
      ∀ w, LeavesOut w → Encodes [17, 34, 0] (w ++ [0x01]) → Decodes w [17, 34, 0] :=
  canonical_frames (by decide)
    (decoded_of_unstuff (unstuff_stuff cobsCoding (by decide) [17, 34, 0]))

end MiniHF
