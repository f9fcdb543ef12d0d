import MiniHF.Protocol.CobsProof
import MiniHF.Uart.Receiver

/-!
# What a delimiter does to the receiver

At a zero byte `uart_isr` takes the first `cobsBufMax` bytes of the ring. One
lemma, `uartIsrByte_zero`, says everything that can follow: the ring loses them,
and the packet they decode to, if there is one, is offered to the queue. It holds
as long as the decoder stays inside `isr_decoded_buf`, and `frameFits` is the
exact condition on the bytes taken for that.
-/

namespace MiniHF

open Buffer Runs

/-! ## Messages -/

theorem unpack_length : ∀ n < 301,
    ((UInt8.ofNat (n &&& 0xFF)).toUInt16
      ||| ((UInt8.ofNat ((n >>> 8) &&& 0xFF)).toUInt16 <<< 8)).toNat = n := by
  decide +kernel

/-- **The handler unpacks what the ISR packed**, whatever the message held before. -/
theorem unpackMsg_packMsg (msg : RxMsg) {decoded : List UInt8}
    (hlen : decoded.length ≤ decodedPktMax) :
    ∃ msg', packMsg msg decoded = .ok msg' ∧ unpackMsg msg' = decoded := by
  have hmax : decodedPktMax = 300 := rfl
  obtain ⟨b₁, h₁, w₁⟩ := store_snoc (UInt8.ofNat (decoded.length &&& 0xFF)) (written_nil msg)
    (by rw [List.length_nil, rxMsgSize]; omega)
  obtain ⟨b₂, h₂, w₂⟩ := store_snoc (UInt8.ofNat ((decoded.length >>> 8) &&& 0xFF)) w₁
    (by simp [rxMsgSize, hmax])
  obtain ⟨b₃, h₃, t, w₃⟩ := memcpy_snoc decoded w₂ (by simp [rxMsgSize]; omega)
  simp only [List.nil_append, List.length_nil, List.length_cons, List.length_append,
    Nat.zero_add, Nat.reduceAdd] at h₁ h₂ h₃
  refine ⟨b₃, by rw [packMsg, h₁, ok_bind, h₂, ok_bind, h₃], ?_⟩
  simp only [List.nil_append, List.cons_append] at w₃
  rw [unpackMsg, ← w₃]
  simp only [List.getD_cons_zero, List.getD_cons_succ, List.drop_succ_cons, List.drop_zero]
  rw [unpack_length _ (by omega), List.take_left]

/-! ## One delimiter -/

/-- The packet a frame decodes to, if `uart_isr` queues one for it. -/
def framePacket (y : List UInt8) : Option (List UInt8) :=
  if (decodeTrace y).2 ∧ 0 < (decodeTrace y).1.length then some (decodeTrace y).1 else none

/-- What the queue, the work item and the record hold after a packet was offered. -/
def Offered (r r' : Receiver) : Option (List UInt8) → Prop
  | some x =>
      if r.rxPktMsgq.items.length < rxQueueDepth then
        ∃ msg, unpackMsg msg = x ∧ r'.rxPktMsgq.items = r.rxPktMsgq.items ++ [msg]
          ∧ r'.rxDispatchWork = true ∧ r'.accepted = r.accepted ++ [x]
      else r'.rxPktMsgq = r.rxPktMsgq ∧ r'.rxDispatchWork = r.rxDispatchWork
          ∧ r'.accepted = r.accepted
  | none => r'.rxPktMsgq = r.rxPktMsgq ∧ r'.rxDispatchWork = r.rxDispatchWork
      ∧ r'.accepted = r.accepted

/-- The bytes `ring_buf_get` takes at a delimiter. -/
def Receiver.taken (r : Receiver) : List UInt8 := r.rxRingBuf.items.take cobsBufMax

theorem enqueue_offered (r : Receiver) (msg : RxMsg) {x : List UInt8} (h : unpackMsg msg = x) :
    Offered r (r.enqueue msg x) (some x) := by
  cases ho : r.rxPktMsgq.offer msg with
  | none =>
      have hfull := Fifo.offer_eq_none.mp ho
      rw [show r.enqueue msg x = r by rw [Receiver.enqueue, ho], Offered, if_neg (by omega)]
      exact ⟨rfl, rfl, rfl⟩
  | some q =>
      obtain ⟨hlt, hq⟩ := Fifo.offer_eq_some.mp ho
      rw [Receiver.enqueue, ho, Offered, if_pos hlt]
      exact ⟨msg, h, hq, rfl, rfl⟩

theorem enqueue_frame (r : Receiver) (msg : RxMsg) (x : List UInt8) :
    (r.enqueue msg x).rxRingBuf = r.rxRingBuf
      ∧ (r.enqueue msg x).handlerRunning = r.handlerRunning
      ∧ (r.enqueue msg x).dispatched = r.dispatched := by
  unfold Receiver.enqueue
  split <;> exact ⟨rfl, rfl, rfl⟩

/-- The ring bytes are copied to the front of `isr_cobs_buf`, which has room for them. -/
theorem copy_taken (r : Receiver) :
    ∃ buf, memcpy r.isrCobsBuf 0 r.taken = .ok buf
      ∧ buf.toList.take r.taken.length = r.taken := by
  have hle : r.taken.length ≤ cobsBufMax := by
    rw [Receiver.taken, List.length_take]; omega
  obtain ⟨buf, hcopy, hw⟩ := memcpy_start r.isrCobsBuf hle
  exact ⟨buf, hcopy, hw.take⟩

/--
**One delimiter.** If the decoder stays inside its buffer, the ring loses the
bytes taken, and their packet is offered to the queue. Nothing else changes.
-/
theorem uartIsrByte_zero (r : Receiver) (msg : RxMsg)
    (hfit : (decodeTrace r.taken).1.length ≤ decodedPktMax) :
    ∃ r', uartIsrByte r msg 0 = .ok r'
      ∧ r'.rxRingBuf.items = r.rxRingBuf.items.drop cobsBufMax
      ∧ r'.handlerRunning = r.handlerRunning ∧ r'.dispatched = r.dispatched
      ∧ Offered r r' (framePacket r.taken) := by
  obtain ⟨buf, hb, htake⟩ := copy_taken r
  rw [uartIsrByte, if_pos rfl]
  dsimp only [Fifo.get]
  simp only [Receiver.taken] at *
  generalize r.rxRingBuf.items.take cobsBufMax = y at *
  rw [hb, ok_bind]
  by_cases hempty : y.length > 0
  · obtain ⟨out, ho, hw⟩ := (cobsDecode_spec y r.isrDecodedBuf).1 hfit
    rw [if_pos hempty, htake, ho, ok_bind]
    dsimp only
    by_cases hpkt : (decodeTrace y).2 ∧ 0 < (decodeTrace y).1.length
    · -- a whole frame: its packet goes to the queue
      obtain ⟨hok, hpos⟩ := hpkt
      obtain ⟨msg', hm, hu⟩ := unpackMsg_packMsg msg hfit
      rw [if_pos hok, Option.getD_some, if_pos ⟨hpos, hfit⟩, hw.take, hm, ok_bind,
        framePacket, if_pos ⟨hok, hpos⟩]
      refine ⟨_, rfl, ?_, ?_, ?_, enqueue_offered { r with
        rxRingBuf := _, isrCobsBuf := buf, isrDecodedBuf := out } msg' hu⟩ <;>
        simp only [enqueue_frame]
    · -- a broken frame, or one that decodes to nothing
      rw [framePacket, if_neg hpkt, if_neg (by
        intro h
        split at h
        · rename_i hok
          exact hpkt ⟨hok, h.1⟩
        · exact absurd h.1 (by simp))]
      exact ⟨_, rfl, rfl, rfl, rfl, rfl, rfl, rfl⟩
  · -- nothing was collected
    rw [if_neg hempty]
    have hnil : y = [] := List.length_eq_zero_iff.mp (by omega)
    refine ⟨_, rfl, rfl, rfl, rfl, ?_⟩
    rw [hnil, framePacket, if_neg (by rw [decodeTrace]; simp)]
    exact ⟨rfl, rfl, rfl⟩

/-- **A delimiter overruns `isr_decoded_buf`** exactly where the decoder stores too much. -/
theorem uartIsrByte_zero_fault (r : Receiver) (msg : RxMsg)
    (hover : decodedPktMax < (decodeTrace r.taken).1.length) :
    uartIsrByte r msg 0 = .error (.overrun decodedPktMax decodedPktMax) := by
  obtain ⟨buf, hb, htake⟩ := copy_taken r
  rw [uartIsrByte, if_pos rfl]
  dsimp only [Fifo.get]
  simp only [Receiver.taken] at *
  generalize r.rxRingBuf.items.take cobsBufMax = y at *
  have hne : y.length > 0 := by
    rcases Nat.eq_zero_or_pos y.length with h | h
    · rw [List.length_eq_zero_iff.mp h, decodeTrace] at hover
      simp at hover
    · exact h
  rw [hb, ok_bind, if_pos hne, htake, (cobsDecode_spec y r.isrDecodedBuf).2 hover, error_bind]

theorem uartIsrByte_ne_zero (r : Receiver) (msg : RxMsg) {b : UInt8} (hb : b ≠ 0) :
    uartIsrByte r msg b = .ok { r with rxRingBuf := r.rxRingBuf.put [b] } := by
  rw [uartIsrByte, if_neg hb]
  rfl

/-! ## Where the decoder stays inside its buffer -/

/-- The frames the decode buffer has room for, among those `isr_cobs_buf` can hold. -/
def frameFits (y : List UInt8) : Prop := y.length < cobsBufMax ∨ 0 < fullBlocks y

instance (y : List UInt8) : Decidable (frameFits y) :=
  inferInstanceAs (Decidable (y.length < cobsBufMax ∨ 0 < fullBlocks y))

theorem trace_fits {y : List UInt8} (hz : 0 ∉ y) (hle : y.length ≤ cobsBufMax) :
    (decodeTrace y).1.length ≤ decodedPktMax ↔ frameFits y := by
  have hmax : cobsBufMax = decodedPktMax + 2 := rfl
  rw [frameFits]
  by_cases hy : y = []
  · subst hy
    simp [decodeTrace, hmax]
  · have := decodeTrace_length hz hy
    omega

/-- A state the receiver can be in: it has not faulted, and its ring holds no delimiter. -/
def RxInv (s : Except Fault Receiver) : Prop := ∃ r, s = .ok r ∧ 0 ∉ r.rxRingBuf.items

/-- If this event is a delimiter, the decode buffer has room for the frame it closes. -/
def delimiterFits (s : Except Fault Receiver) : RxEvent → Prop
  | .byte b _ => b = 0 → ∀ r, s = .ok r → frameFits r.taken
  | _ => True

theorem taken_fits {r : Receiver} (hz : 0 ∉ r.rxRingBuf.items) :
    (decodeTrace r.taken).1.length ≤ decodedPktMax ↔ frameFits r.taken :=
  trace_fits (fun h => hz (List.mem_of_mem_take h)) (by rw [Receiver.taken, List.length_take]; omega)

/-- The work queue touches neither the ring nor the decoder, and only takes messages out. -/
theorem step_handler (r : Receiver) {e : RxEvent} (he : ∀ b msg, e ≠ .byte b msg) :
    ∃ r', r.step e = .ok r' ∧ r'.rxRingBuf = r.rxRingBuf ∧ r'.accepted = r.accepted
      ∧ r'.rxPktMsgq.items.length ≤ r.rxPktMsgq.items.length := by
  cases e with
  | byte b msg => exact absurd rfl (he b msg)
  | start =>
      rw [Receiver.step]
      split <;> exact ⟨_, rfl, rfl, rfl, Nat.le_refl _⟩
  | next =>
      rw [Receiver.step]
      split
      · split
        · rename_i msg rest q hget
          have hq : q.items = r.rxPktMsgq.items.drop 1 := by
            rw [← Fifo.get_snd_items, hget]
          refine ⟨_, rfl, rfl, rfl, ?_⟩
          dsimp only
          rw [hq, List.length_drop]
          omega
        · exact ⟨_, rfl, rfl, rfl, Nat.le_refl _⟩
      · exact ⟨_, rfl, rfl, rfl, Nat.le_refl _⟩

theorem rxStep_inv {s : Except Fault Receiver} {e : RxEvent} (h : RxInv s)
    (hfit : delimiterFits s e) : RxInv (rxStep s e) := by
  obtain ⟨r, rfl, hz⟩ := h
  rw [rxStep, ok_bind]
  cases e with
  | byte b msg =>
      rw [Receiver.step]
      by_cases hb : b = 0
      · subst hb
        obtain ⟨r', hr', hring, _⟩ :=
          uartIsrByte_zero r msg ((taken_fits hz).mpr (hfit rfl r rfl))
        exact ⟨r', hr', fun h => hz (by rw [hring] at h; exact List.mem_of_mem_drop h)⟩
      · refine ⟨_, uartIsrByte_ne_zero r msg hb, fun h => ?_⟩
        rcases List.mem_append.mp h with h | h
        · exact hz h
        · exact hb (List.mem_singleton.mp (List.mem_of_mem_take h)).symm
  | start =>
      obtain ⟨r', hr', hring, _⟩ := step_handler r (e := .start) (by simp)
      exact ⟨r', hr', by rwa [hring]⟩
  | next =>
      obtain ⟨r', hr', hring, _⟩ := step_handler r (e := .next) (by simp)
      exact ⟨r', hr', by rwa [hring]⟩

theorem rxStep_fault {s : Except Fault Receiver} {e : RxEvent} (h : RxInv s)
    (hover : ¬ delimiterFits s e) :
    rxStep s e = .error (.overrun decodedPktMax decodedPktMax) := by
  obtain ⟨r, rfl, hz⟩ := h
  cases e with
  | byte b msg =>
      by_cases hb : b = 0
      · subst hb
        have hnot : ¬ frameFits r.taken := fun hf => hover fun _ r' hr' => by
          rw [← Except.ok.inj hr']; exact hf
        rw [← taken_fits hz] at hnot
        rw [rxStep, ok_bind, Receiver.step, uartIsrByte_zero_fault r msg (by omega)]
      · exact absurd (fun h => absurd h hb) hover
  | start => exact absurd trivial hover
  | next => exact absurd trivial hover

theorem rxInv_init : RxInv (.ok Receiver.init) := ⟨_, rfl, by simp [Receiver.init]⟩

/-- The receiver has made no store outside its buffers. -/
def NoFault (s : Except Fault Receiver) : Prop := ∃ r, s = .ok r

theorem noFault_iff_along {s : Except Fault Receiver} (h : RxInv s) (es : List RxEvent) :
    Throughout rxStep NoFault s es ↔ Along rxStep delimiterFits s es := by
  refine throughout_iff_along (J := RxInv) (fun s e => rxStep_inv) (fun s hs => ?_)
    (fun s e hs hbad => ?_) h es
  · obtain ⟨r, hr, _⟩ := hs
    exact ⟨r, hr⟩
  · rw [rxStep_fault hs hbad]
    rintro ⟨r, hr⟩
    simp at hr

theorem run_error (f : Fault) (es : List RxEvent) : run rxStep (.error f) es = .error f := by
  induction es with
  | nil => rfl
  | cons e es ih => exact ih

/--
**No store behind `isr_decoded_buf`, exactly as long as the frames fit.**

A stream overruns the buffer if and only if some delimiter closes a frame of 302
bytes without a full block; a run that fails does so at index 300 of that buffer.
-/
theorem decoder_inside_buffer (es : List RxEvent) :
    (Throughout rxStep NoFault (.ok Receiver.init) es
        ↔ Along rxStep delimiterFits (.ok Receiver.init) es)
      ∧ (NoFault (run rxStep (.ok Receiver.init) es)
        ∨ run rxStep (.ok Receiver.init) es
            = .error (.overrun decodedPktMax decodedPktMax)) := by
  refine ⟨noFault_iff_along rxInv_init es, ?_⟩
  have h := rxInv_init
  generalize Except.ok Receiver.init = s at *
  induction es generalizing s with
  | nil =>
      obtain ⟨r, hr, _⟩ := h
      exact Or.inl ⟨r, hr⟩
  | cons e es ih =>
      rw [run_cons]
      rcases Classical.em (delimiterFits s e) with hfit | hover
      · exact ih _ (rxStep_inv h hfit)
      · rw [rxStep_fault h hover, run_error]
        exact Or.inr rfl

theorem bytesOf_append (es fs : List RxEvent) : bytesOf (es ++ fs) = bytesOf es ++ bytesOf fs := by
  induction es with
  | nil => rfl
  | cons e es ih => cases e <;> simp [bytesOf, ih]

/-- **What a step that does not fault can do.** -/
theorem rxStep_cases {r r' : Receiver} {e : RxEvent} (h : rxStep (.ok r) e = .ok r') :
    (bytesOf [e] = [0] ∧ r'.rxRingBuf.items = r.rxRingBuf.items.drop cobsBufMax
      ∧ Offered r r' (framePacket r.taken))
    ∨ (∃ b, b ≠ 0 ∧ bytesOf [e] = [b] ∧ r' = { r with rxRingBuf := r.rxRingBuf.put [b] })
    ∨ (bytesOf [e] = [] ∧ r'.rxRingBuf = r.rxRingBuf ∧ r'.accepted = r.accepted
      ∧ r'.rxPktMsgq.items.length ≤ r.rxPktMsgq.items.length) := by
  by_cases he : ∀ b msg, e ≠ .byte b msg
  · obtain ⟨r₁, hr₁, hkeep⟩ := step_handler r he
    rw [rxStep, ok_bind, hr₁, Except.ok.injEq] at h
    subst h
    refine Or.inr (Or.inr ⟨?_, hkeep⟩)
    cases e with
    | byte b msg => exact absurd rfl (he b msg)
    | start => rfl
    | next => rfl
  · simp only [ne_eq, Classical.not_forall, Classical.not_not] at he
    obtain ⟨b, msg, rfl⟩ := he
    rw [rxStep, ok_bind, Receiver.step] at h
    by_cases hb : b = 0
    · subst hb
      refine Or.inl ⟨rfl, ?_⟩
      rcases Nat.lt_or_ge decodedPktMax (decodeTrace r.taken).1.length with hover | hfit
      · rw [uartIsrByte_zero_fault r msg hover] at h
        cases h
      · obtain ⟨r₁, hr₁, hring, _, _, hoff⟩ := uartIsrByte_zero r msg hfit
        rw [hr₁, Except.ok.injEq] at h
        subst h
        exact ⟨hring, hoff⟩
    · rw [uartIsrByte_ne_zero r msg hb, Except.ok.injEq] at h
      exact Or.inr (Or.inl ⟨b, hb, rfl, h.symm⟩)

/-- **Bytes between two delimiters are collected in the ring**, up to its capacity. -/
theorem run_collect (r : Receiver) {es : List RxEvent} (hz : 0 ∉ bytesOf es) :
    ∃ r', run rxStep (.ok r) es = .ok r' ∧ r'.rxRingBuf = r.rxRingBuf.put (bytesOf es)
      ∧ r'.accepted = r.accepted := by
  induction es generalizing r with
  | nil => exact ⟨r, rfl, (Fifo.put_nil _).symm, rfl⟩
  | cons e es ih =>
      rw [run_cons, rxStep, ok_bind]
      cases e with
      | byte b msg =>
          simp only [bytesOf, List.mem_cons, not_or] at hz
          rw [Receiver.step, uartIsrByte_ne_zero r msg (fun h => hz.1 h.symm)]
          obtain ⟨r', hr', hring, hacc⟩ := ih { r with rxRingBuf := r.rxRingBuf.put [b] } hz.2
          exact ⟨r', hr', by rw [hring, bytesOf, ← Fifo.put_append]; rfl, hacc⟩
      | start =>
          obtain ⟨r₁, hr₁, hring₁, hacc₁, _⟩ := step_handler r (e := .start) (by simp)
          obtain ⟨r', hr', hring, hacc⟩ := ih r₁ hz
          exact ⟨r', by rw [hr₁]; exact hr', by rw [hring, hring₁]; rfl, by rw [hacc, hacc₁]⟩
      | next =>
          obtain ⟨r₁, hr₁, hring₁, hacc₁, _⟩ := step_handler r (e := .next) (by simp)
          obtain ⟨r', hr', hring, hacc⟩ := ih r₁ hz
          exact ⟨r', by rw [hr₁]; exact hr', by rw [hring, hring₁]; rfl, by rw [hacc, hacc₁]⟩

/-- 302 bytes `0x01` and a delimiter: the decoder stores 301 bytes. -/
theorem decoder_inside_buffer_overrun :
    run rxStep (.ok Receiver.init)
        (List.replicate 302 (.byte 0x01 (Vector.replicate _ 0))
          ++ [.byte 0x00 (Vector.replicate _ 0)])
      = .error (.overrun 300 300) := by
  have hbytes : bytesOf (List.replicate 302 (.byte 0x01 (Vector.replicate _ 0)))
      = List.replicate 302 0x01 := by decide +kernel
  have hclean : 0 ∉ bytesOf (List.replicate 302 (.byte 0x01 (Vector.replicate _ 0))) := by
    rw [hbytes]
    decide +kernel
  obtain ⟨r, hr, hring, _⟩ := run_collect Receiver.init hclean
  have htaken : r.taken = List.replicate 302 0x01 := by
    rw [Receiver.taken, hring, hbytes]
    decide +kernel
  have hlen : (decodeTrace (List.replicate 302 0x01)).1.length = 301 := by decide +kernel
  rw [run_append, hr]
  exact uartIsrByte_zero_fault r _ (by rw [htaken, hlen]; decide)

end MiniHF
