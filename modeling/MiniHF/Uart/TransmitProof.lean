import MiniHF.Lib.Delimited
import MiniHF.Lib.Runs
import MiniHF.Protocol.PacketProof
import MiniHF.Uart.Transmit

/-!
# Frames on the way out

As long as every frame finds room for all of it or for none of it, what went
through the ring is a sequence of whole frames. The first frame that finds room
for a part only breaks this at once: its delimiter is lost, and the bytes in the
ring no longer end where a frame ends.
-/

namespace MiniHF

open Buffer Delimited Runs

section Device

variable (crc16Ccitt : UInt16 → List UInt8 → UInt16) (junk : ∀ n, Vector UInt8 n)

/-- The COBS bytes of a packet's frame, without the delimiter. -/
def frameBody (p : Packet) : List UInt8 := cobs (packetBytes crc16Ccitt p)

/-- What has gone through the ring is a sequence of whole frames, in the order sent. -/
structure FramesWhole (t : Transmit) : Prop where
  /-- The bytes stored so far are frames, each with its delimiter. -/
  stored : ∃ fs, fs.Sublist (t.sent.map (frameBody crc16Ccitt))
    ∧ t.drained ++ t.txRingBuf.items = close 0 fs
  /-- The bytes that have left, split at the delimiter, are frames that were sent. -/
  leaving : (complete 0 t.drained).Sublist (t.sent.map (frameBody crc16Ccitt))

/-- The transmitter has not faulted, and its frames are whole. -/
def Atomic (s : Except Fault Transmit) : Prop := ∃ t, s = .ok t ∧ FramesWhole crc16Ccitt t

/-- A frame finds room for all of it, or for none of it. -/
def roomForFrame (s : Except Fault Transmit) : TxEvent → Prop
  | .send cmdId payload id => payload.length ≤ 255 → ∀ t, s = .ok t →
      (frame crc16Ccitt { type := cmdId, id, payload }).length ≤ t.txRingBuf.space
        ∨ t.txRingBuf.space = 0
  | .pass _ _ => True

/-- The step puts the frame into the ring whole or not at all. -/
def putWhole (s : Except Fault Transmit) (e : TxEvent) : Prop :=
  match e with
  | .send cmdId payload id => ∀ t, s = .ok t → ∃ t', txStep crc16Ccitt junk s e = .ok t'
      ∧ (t'.txRingBuf.items = t.txRingBuf.items
        ∨ t'.txRingBuf.items
            = t.txRingBuf.items ++ frame crc16Ccitt { type := cmdId, id, payload })
  | .pass _ _ => True

/-! ## What one step does -/

theorem step_send (t : Transmit) (p : Packet) (hlen : p.payload.length ≤ 255) :
    txStep crc16Ccitt junk (.ok t) (.send p.type p.payload p.id)
      = .ok { t with
          txRingBuf := t.txRingBuf.put (frame crc16Ccitt p), txIrq := true, sent := t.sent ++ [p] } := by
  rw [txStep, ok_bind, Transmit.step, sendPacket_spec crc16Ccitt junk p hlen, ok_bind]
  rfl

theorem step_send_long (t : Transmit) {cmdId : UInt8} {payload : List UInt8} {id : UInt16}
    (hlen : payload.length > 255) :
    txStep crc16Ccitt junk (.ok t) (.send cmdId payload id) = .ok t := by
  rw [txStep, ok_bind, Transmit.step, sendPacket, if_pos hlen]
  rfl

/-- A pass moves bytes from the ring to the UART. -/
theorem uartIsrTx_moves (t : Transmit) (contiguous accepted : Nat) :
    (uartIsrTx t contiguous accepted).drained ++ (uartIsrTx t contiguous accepted).txRingBuf.items
        = t.drained ++ t.txRingBuf.items
      ∧ (uartIsrTx t contiguous accepted).sent = t.sent := by
  unfold uartIsrTx
  dsimp only
  split
  · refine ⟨?_, rfl⟩
    simp only [Fifo.get, List.append_assoc, List.take_append_drop]
  · exact ⟨rfl, rfl⟩

/-- What has left is a prefix of what was stored, so its closed pieces are whole frames. -/
theorem FramesWhole.of_stored {t : Transmit} (fs : List (List UInt8))
    (hsub : fs.Sublist (t.sent.map (frameBody crc16Ccitt)))
    (hstored : t.drained ++ t.txRingBuf.items = close 0 fs) : FramesWhole crc16Ccitt t := by
  refine ⟨⟨fs, hsub, hstored⟩, ?_⟩
  have hclean : ∀ f ∈ fs, 0 ∉ f := by
    intro f hf
    obtain ⟨p, _, rfl⟩ := List.mem_map.mp (hsub.subset hf)
    exact cobs_clean _
  have hprefix := complete_prefix 0 (List.prefix_append t.drained t.txRingBuf.items)
  rw [hstored, complete_close hclean] at hprefix
  exact hprefix.sublist.trans hsub

theorem close_append (fs gs : List (List UInt8)) : close 0 (fs ++ gs) = close 0 fs ++ close 0 gs :=
  List.flatMap_append

theorem frame_eq_close (p : Packet) :
    frame crc16Ccitt p = close 0 [frameBody crc16Ccitt p] := by
  simp [frame, close, frameBody]

theorem frame_length (p : Packet) :
    (frame crc16Ccitt p).length = (frameBody crc16Ccitt p).length + 1 := by
  rw [frame, List.length_append, List.length_singleton, frameBody]

theorem txStep_atomic {s : Except Fault Transmit} {e : TxEvent} (h : Atomic crc16Ccitt s)
    (hroom : roomForFrame crc16Ccitt s e) : Atomic crc16Ccitt (txStep crc16Ccitt junk s e) := by
  obtain ⟨t, rfl, hw⟩ := h
  obtain ⟨fs, hsub, hstored⟩ := hw.stored
  cases e with
  | send cmdId payload id =>
      rcases Nat.lt_or_ge 255 payload.length with hlong | hlen
      · exact ⟨t, step_send_long crc16Ccitt junk t hlong, hw⟩
      · refine ⟨_, step_send crc16Ccitt junk t { type := cmdId, id, payload } hlen, ?_⟩
        rcases hroom hlen t rfl with hfit | hfull
        · -- the whole frame
          refine FramesWhole.of_stored crc16Ccitt
            (fs ++ [frameBody crc16Ccitt { type := cmdId, id, payload }]) ?_ ?_
          · rw [List.map_append]
            exact hsub.append (List.Sublist.refl _)
          · dsimp only
            rw [Fifo.put_whole hfit, ← List.append_assoc, hstored, close_append, frame_eq_close]
        · -- nothing of it
          refine FramesWhole.of_stored crc16Ccitt fs ?_ ?_
          · rw [List.map_append]
            exact hsub.trans (List.sublist_append_left _ _)
          · dsimp only
            rw [Fifo.put_full hfull, hstored]
  | pass contiguous accepted =>
      obtain ⟨hmoves, hsent⟩ := uartIsrTx_moves t contiguous accepted
      refine ⟨_, rfl, FramesWhole.of_stored crc16Ccitt fs ?_ ?_⟩
      · rw [hsent]; exact hsub
      · rw [hmoves, hstored]

/-- A stream of closed frames ends in a delimiter. -/
theorem close_ne_append {fs gs : List (List UInt8)} {x : List UInt8} (hne : x ≠ [])
    (hz : 0 ∉ x) : close 0 gs ≠ close 0 fs ++ x := by
  intro h
  have hrest : rest 0 (close 0 fs ++ x) = x := by
    rw [rest_append, rest_close, List.nil_append, rest_of_clean hz]
  rw [← h, rest_close] at hrest
  exact hne hrest.symm

/-- The part of a frame that fits, if not all of it does, holds no delimiter. -/
theorem frame_part_clean {p : Packet} {n : Nat} (h : n < (frame crc16Ccitt p).length) :
    0 ∉ (frame crc16Ccitt p).take n := by
  rw [frame_length, frameBody] at h
  rw [frame, List.take_append_of_le_length (by omega)]
  exact fun hmem => cobs_clean _ (List.mem_of_mem_take hmem)

theorem txStep_cut {s : Except Fault Transmit} {e : TxEvent} (h : Atomic crc16Ccitt s)
    (hcut : ¬ roomForFrame crc16Ccitt s e) :
    ¬ Atomic crc16Ccitt (txStep crc16Ccitt junk s e) := by
  obtain ⟨t, rfl, hw⟩ := h
  obtain ⟨fs, _, hstored⟩ := hw.stored
  cases e with
  | send cmdId payload id =>
      rw [roomForFrame, Classical.not_imp] at hcut
      obtain ⟨hlen, hcut⟩ := hcut
      have hroom : ¬ ((frame crc16Ccitt { type := cmdId, id, payload }).length ≤ t.txRingBuf.space
          ∨ t.txRingBuf.space = 0) :=
        fun hroom => hcut fun t' ht' => by rw [← Except.ok.inj ht']; exact hroom
      rintro ⟨t', ht', hw'⟩
      obtain ⟨gs, _, hstored'⟩ := hw'.stored
      rw [step_send crc16Ccitt junk t { type := cmdId, id, payload } hlen, Except.ok.injEq] at ht'
      subst ht'
      dsimp only at hstored'
      rw [Fifo.put_items, ← List.append_assoc, hstored] at hstored'
      refine close_ne_append ?_ (frame_part_clean crc16Ccitt (by omega)) hstored'.symm
      rw [← List.length_pos_iff, List.length_take]
      omega
  | pass contiguous accepted => exact absurd trivial hcut

theorem atomic_init : Atomic crc16Ccitt (.ok Transmit.init) :=
  ⟨_, rfl, FramesWhole.of_stored crc16Ccitt [] (List.nil_sublist _) rfl⟩

/-- For one call, room is the same as being stored whole or not at all. -/
theorem putWhole_iff (t : Transmit) (e : TxEvent) :
    putWhole crc16Ccitt junk (.ok t) e ↔ roomForFrame crc16Ccitt (.ok t) e := by
  cases e with
  | pass contiguous accepted => exact Iff.rfl
  | send cmdId payload id =>
      rcases Nat.lt_or_ge 255 payload.length with hlong | hlen
      · constructor
        · intro _ hle
          omega
        · intro _ t' ht'
          rw [← Except.ok.inj ht']
          exact ⟨t, step_send_long crc16Ccitt junk t hlong, Or.inl rfl⟩
      · have hstep := step_send crc16Ccitt junk t { type := cmdId, id, payload } hlen
        have hpos : 0 < (frame crc16Ccitt { type := cmdId, id, payload }).length := by
          rw [frame_length]
          omega
        constructor
        · intro h _ t' ht'
          rw [← Except.ok.inj ht']
          obtain ⟨t₁, ht₁, hput⟩ := h t rfl
          rw [hstep, Except.ok.injEq] at ht₁
          subst ht₁
          rcases hput with hput | hput <;> have hl := congrArg List.length hput <;>
            simp only [Fifo.put_items, List.length_append, List.length_take] at hl <;> omega
        · intro hroom t' ht'
          rw [← Except.ok.inj ht']
          refine ⟨_, hstep, ?_⟩
          rcases hroom hlen t rfl with hfit | hfull
          · exact Or.inr (Fifo.put_whole hfit)
          · exact Or.inl (Fifo.put_full hfull)

theorem txStep_ok {s : Except Fault Transmit} (e : TxEvent) (h : ∃ t, s = .ok t) :
    ∃ t, txStep crc16Ccitt junk s e = .ok t := by
  obtain ⟨t, rfl⟩ := h
  cases e with
  | pass contiguous accepted => exact ⟨_, rfl⟩
  | send cmdId payload id =>
      rcases Nat.lt_or_ge 255 payload.length with hlong | hlen
      · exact ⟨t, step_send_long crc16Ccitt junk t hlong⟩
      · exact ⟨_, step_send crc16Ccitt junk t { type := cmdId, id, payload } hlen⟩

/--
**Frame atomicity, exactly as long as there is room.**

Over any run of calls and transmit passes, every call stores its frame whole or
not at all, and the stream that leaves is made of frames that were sent, in their
order, if and only if every call finds room for its whole frame or for no byte.
-/
theorem frames_atomic (es : List TxEvent) :
    (Along (txStep crc16Ccitt junk) (putWhole crc16Ccitt junk) (.ok Transmit.init) es
        ↔ Along (txStep crc16Ccitt junk) (roomForFrame crc16Ccitt) (.ok Transmit.init) es)
      ∧ (Throughout (txStep crc16Ccitt junk) (Atomic crc16Ccitt) (.ok Transmit.init) es
        ↔ Along (txStep crc16Ccitt junk) (roomForFrame crc16Ccitt) (.ok Transmit.init) es) := by
  refine ⟨along_congr (J := fun s => ∃ t, s = .ok t) (fun s e => txStep_ok crc16Ccitt junk e)
    (fun s e hs => ?_) ⟨_, rfl⟩ es, ?_⟩
  · obtain ⟨t, rfl⟩ := hs
    exact putWhole_iff crc16Ccitt junk t e
  · exact throughout_iff_along (fun s e => txStep_atomic crc16Ccitt junk) (fun _ h => h)
      (fun s e => txStep_cut crc16Ccitt junk) (atomic_init crc16Ccitt) es

/-! ## A frame that was cut -/

theorem frameBody_length {p : Packet} (h : p.payload.length ≤ 255) :
    p.payload.length + 8 ≤ (frameBody crc16Ccitt p).length
      ∧ (frameBody crc16Ccitt p).length ≤ p.payload.length + 9 := by
  have hraw := packetBytes_length crc16Ccitt p
  have hle := cobs_length (packetBytes crc16Ccitt p)
  have hgt := cobs_length_gt (packetBytes crc16Ccitt p)
  rw [packetSize] at hraw
  rw [frameBody]
  omega

/-- Passes over an idle line empty the ring. -/
theorem run_drain {t : Transmit} {n : Nat} (h : t.txRingBuf.items.length ≤ 64 * n) :
    ∃ t', run (txStep crc16Ccitt junk) (.ok t) (List.replicate n (.pass txRingBufSize 64)) = .ok t'
      ∧ t'.txRingBuf.items = [] ∧ t'.drained = t.drained ++ t.txRingBuf.items
      ∧ t'.sent = t.sent := by
  induction n generalizing t with
  | zero =>
      have hnil : t.txRingBuf.items = [] := List.length_eq_zero_iff.mp (by omega)
      exact ⟨t, rfl, hnil, by rw [hnil, List.append_nil], rfl⟩
  | succ n ih =>
      obtain ⟨hmoves, hsent⟩ := uartIsrTx_moves t txRingBufSize 64
      have hring : (uartIsrTx t txRingBufSize 64).txRingBuf.items.length ≤ 64 * n := by
        have hsize : txRingBufSize = 512 := rfl
        unfold uartIsrTx
        dsimp only
        split
        · simp only [Fifo.get, List.length_drop]
          omega
        · dsimp only
          omega
      obtain ⟨t', ht', hnil, hdrained, hsent'⟩ := ih hring
      exact ⟨t', ht', hnil, by rw [hdrained, hmoves], by rw [hsent', hsent]⟩

/-- What of two long frames and a short one leaves, if the line is idle until the second is cut. -/
theorem run_fused {p q r : Packet} {n : Nat} (hp : p.payload.length = 255)
    (hq : q.payload.length = 255) (hr : r.payload = [])
    (hn : n = txRingBufSize - (frame crc16Ccitt p).length) :
    ∃ t, run (txStep crc16Ccitt junk) (.ok Transmit.init)
        ([.send p.type p.payload p.id, .send q.type q.payload q.id]
          ++ List.replicate 8 (.pass txRingBufSize 64)
          ++ [.send r.type r.payload r.id, .pass txRingBufSize 64]) = .ok t
      ∧ t.sent = [p, q, r]
      ∧ complete 0 t.drained
          = [frameBody crc16Ccitt p, (frameBody crc16Ccitt q).take n ++ frameBody crc16Ccitt r] := by
  have hsize : txRingBufSize = 512 := rfl
  have hlp := frameBody_length crc16Ccitt (p := p) (by omega)
  have hlq := frameBody_length crc16Ccitt (p := q) (by omega)
  have hlr := frameBody_length crc16Ccitt (p := r) (by simp [hr])
  rw [hr, List.length_nil] at hlr
  have hfp := frame_length crc16Ccitt p
  have hfr := frame_length crc16Ccitt r
  -- the second frame finds what the first has left
  have hput : ((Transmit.init.txRingBuf.put (frame crc16Ccitt p)).put (frame crc16Ccitt q)).items
      = frame crc16Ccitt p ++ (frameBody crc16Ccitt q).take n := by
    have hp : (Transmit.init.txRingBuf.put (frame crc16Ccitt p)).items = frame crc16Ccitt p :=
      Fifo.put_whole (by show _ ≤ txRingBufSize; omega)
    rw [Fifo.put_items, Fifo.space, hp, frame.eq_1 crc16Ccitt q, ← frameBody,
      ← hn, List.take_append_of_le_length (by omega)]
  obtain ⟨t₁, ht₁, hring₁, hdrained₁, hsent₁⟩ := run_drain crc16Ccitt junk (n := 8)
    (t := { txRingBuf := (Transmit.init.txRingBuf.put (frame crc16Ccitt p)).put (frame crc16Ccitt q)
            txIrq := true, drained := [], sent := [p, q] })
    (Nat.le_trans (Fifo.fits _) (by decide))
  obtain ⟨t₂, ht₂, hring₂, hdrained₂, hsent₂⟩ := run_drain crc16Ccitt junk (n := 1)
    (t := { t₁ with
      txRingBuf := t₁.txRingBuf.put (frame crc16Ccitt r), txIrq := true, sent := t₁.sent ++ [r] })
    (by
      dsimp only
      rw [Fifo.put_items, hring₁, List.nil_append, List.length_take]
      omega)
  have htwo : run (txStep crc16Ccitt junk) (.ok Transmit.init)
      [.send p.type p.payload p.id, .send q.type q.payload q.id] = .ok
        { txRingBuf := (Transmit.init.txRingBuf.put (frame crc16Ccitt p)).put (frame crc16Ccitt q)
          txIrq := true, drained := [], sent := [p, q] } := by
    rw [run_cons, step_send crc16Ccitt junk _ p (by omega), run_cons,
      step_send crc16Ccitt junk _ q (by omega), run_nil]
    rfl
  refine ⟨t₂, ?_, by rw [hsent₂]; simp [hsent₁], ?_⟩
  · rw [run_append, run_append, htwo, ht₁, run_cons,
      step_send crc16Ccitt junk _ r (by simp [hr])]
    exact ht₂
  · have hclean : ∀ f ∈ [frameBody crc16Ccitt p,
        (frameBody crc16Ccitt q).take n ++ frameBody crc16Ccitt r], 0 ∉ f := by
      intro f hf
      simp only [List.mem_cons, List.not_mem_nil, or_false] at hf
      rcases hf with rfl | rfl
      · exact cobs_clean _
      · intro hmem
        rcases List.mem_append.mp hmem with hmem | hmem
        · exact cobs_clean _ (List.mem_of_mem_take hmem)
        · exact cobs_clean _ hmem
    have hput₂ : (t₁.txRingBuf.put (frame crc16Ccitt r)).items = frame crc16Ccitt r := by
      rw [Fifo.put_whole (by rw [Fifo.space, hring₁, List.length_nil]; omega), hring₁,
        List.nil_append]
    rw [hdrained₂]
    dsimp only
    rw [hput₂, hdrained₁]
    dsimp only
    rw [hput, List.nil_append, ← complete_close hclean]
    simp [close, frame, frameBody]

end Device

/--
Two packets of 255 bytes and an acknowledgement, the line idle until the second was
put: the second is cut, and the third leaves fused with what was left of it.
-/
theorem frames_atomic_fused :
    ∃ t, run (txStep Crc16.crc16 fun _ => Vector.replicate _ 0) (.ok Transmit.init)
        ([.send 0x02 (List.replicate 255 0x11) 1, .send 0x04 (List.replicate 255 0x22) 2]
          ++ List.replicate 8 (.pass txRingBufSize 64)
          ++ [.send 0xFF [] 3, .pass txRingBufSize 64]) = .ok t
      ∧ ¬ (complete 0 t.drained).Sublist (t.sent.map (frameBody Crc16.crc16)) := by
  let p : Packet := { type := 0x02, id := 1, payload := List.replicate 255 0x11 }
  let q : Packet := { type := 0x04, id := 2, payload := List.replicate 255 0x22 }
  let r : Packet := { type := 0xFF, id := 3, payload := [] }
  obtain ⟨t, ht, hsent, hcomplete⟩ :=
    run_fused Crc16.crc16 (fun _ => Vector.replicate _ 0) (p := p) (q := q) (r := r)
      List.length_replicate List.length_replicate rfl rfl
  refine ⟨t, ht, fun hsub => ?_⟩
  rw [hcomplete, hsent] at hsub
  have hlp : p.payload.length = 255 := List.length_replicate
  have hlq : q.payload.length = 255 := List.length_replicate
  have hlr : r.payload.length = 0 := rfl
  have hp := frameBody_length Crc16.crc16 (p := p) (by omega)
  have hq := frameBody_length Crc16.crc16 (p := q) (by omega)
  have hr := frameBody_length Crc16.crc16 (p := r) (by omega)
  have hfp := frame_length Crc16.crc16 p
  -- the fused piece is longer than the third frame and shorter than the others
  have hmem := hsub.subset (List.mem_cons_of_mem _ (List.mem_singleton.mpr rfl))
  simp only [List.map_cons, List.map_nil, List.mem_cons, List.not_mem_nil, or_false] at hmem
  have hsize : txRingBufSize = 512 := rfl
  rcases hmem with hmem | hmem | hmem <;> have hl := congrArg List.length hmem <;>
    rw [List.length_append, List.length_take] at hl <;> omega

end MiniHF
