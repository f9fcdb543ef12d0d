import MiniHF.Lib.Delimited
import MiniHF.Uart.ReceiverProof

/-!
# The receive queue

Between the ISR and the handler lie a queue of four messages and a work item. The
invariant is that what has been dispatched and what is still queued make up what
was accepted, and that a queue with something in it has someone coming for it.

A stream of frames that fit keeps the ring at the beginning of the current frame,
so at each delimiter the ring holds exactly that frame.
-/

namespace MiniHF

open Buffer Delimited Runs

/-- The queue between its two sides. -/
structure QueueInv (r : Receiver) : Prop where
  /-- Nothing is lost, reordered or changed between the two sides. -/
  order : r.dispatched ++ r.rxPktMsgq.items.map unpackMsg = r.accepted
  /-- Whatever is queued will be looked at. -/
  awake : r.rxPktMsgq.items ≠ [] → r.rxDispatchWork = true ∨ r.handlerRunning = true

theorem queueInv_init : QueueInv Receiver.init := ⟨rfl, fun h => absurd rfl h⟩

/-- A packet offered to the queue keeps the invariant, whether it is accepted or not. -/
theorem QueueInv.offered {r r' : Receiver} (h : QueueInv r) {x : Option (List UInt8)}
    (hrunning : r'.handlerRunning = r.handlerRunning) (hdispatched : r'.dispatched = r.dispatched)
    (hoff : Offered r r' x) : QueueInv r' := by
  have hsame : r'.rxPktMsgq = r.rxPktMsgq ∧ r'.rxDispatchWork = r.rxDispatchWork
      ∧ r'.accepted = r.accepted → QueueInv r' := by
    rintro ⟨hq, hwork, hacc⟩
    exact ⟨by rw [hdispatched, hq, hacc]; exact h.order,
      by rw [hq, hwork, hrunning]; exact h.awake⟩
  cases x with
  | none => exact hsame hoff
  | some x =>
      rw [Offered] at hoff
      split at hoff
      · -- accepted: the message goes to the end, and the work item is submitted
        obtain ⟨msg, hmsg, hq, hwork, hacc⟩ := hoff
        refine ⟨?_, fun _ => Or.inl hwork⟩
        rw [hdispatched, hq, hacc, List.map_append, ← List.append_assoc, h.order, List.map_singleton,
          hmsg]
      · exact hsame hoff

/-- What the handler does at its next look at the queue. -/
theorem step_next {r : Receiver} (hrunning : r.handlerRunning = true) :
    r.step .next = .ok (match r.rxPktMsgq.items with
      | [] => { r with handlerRunning := false }
      | msg :: _ =>
          { r with
            rxPktMsgq := (r.rxPktMsgq.get 1).2, dispatched := r.dispatched ++ [unpackMsg msg] }) := by
  rw [Receiver.step, if_pos hrunning]
  cases hitems : r.rxPktMsgq.items with
  | nil => simp only [Fifo.get, hitems, List.take_nil]
  | cons msg rest => simp only [Fifo.get, hitems, List.take_succ_cons]

theorem queueInv_step {r r' : Receiver} (h : QueueInv r) {e : RxEvent}
    (hr : rxStep (.ok r) e = .ok r') : QueueInv r' := by
  rw [rxStep, ok_bind] at hr
  cases e with
  | byte b msg =>
      rw [Receiver.step] at hr
      by_cases hb : b = 0
      · subst hb
        rcases Nat.lt_or_ge decodedPktMax (decodeTrace r.taken).1.length with hover | hfit
        · rw [uartIsrByte_zero_fault r msg hover] at hr
          cases hr
        · obtain ⟨r₁, hr₁, _, hrunning, hdispatched, hoff⟩ := uartIsrByte_zero r msg hfit
          rw [hr₁, Except.ok.injEq] at hr
          subst hr
          exact h.offered hrunning hdispatched hoff
      · rw [uartIsrByte_ne_zero r msg hb, Except.ok.injEq] at hr
        subst hr
        exact ⟨h.order, h.awake⟩
  | start =>
      rw [Receiver.step] at hr
      split at hr <;> rw [Except.ok.injEq] at hr <;> subst hr
      · exact ⟨h.order, fun _ => Or.inr rfl⟩
      · exact h
  | next =>
      by_cases hrunning : r.handlerRunning = true
      · rw [step_next hrunning, Except.ok.injEq] at hr
        subst hr
        split
        · -- the queue is empty, so the handler may return
          rename_i hempty
          exact ⟨h.order, fun hne => absurd hempty hne⟩
        · rename_i msg rest hitems
          have hq : (r.rxPktMsgq.get 1).2.items = rest := by
            rw [Fifo.get_snd_items, hitems]
            rfl
          refine ⟨?_, fun _ => Or.inr hrunning⟩
          have horder := h.order
          rw [hitems, List.map_cons] at horder
          dsimp only
          rw [hq, List.append_assoc]
          exact horder
      · rw [Receiver.step, if_neg hrunning, Except.ok.injEq] at hr
        subst hr
        exact h

/-! ## Nothing stays queued -/

/-- A running handler takes out what is queued, message by message. -/
theorem run_handler {r : Receiver} (hrunning : r.handlerRunning = true) :
    ∃ r', run rxStep (.ok r) (List.replicate r.rxPktMsgq.items.length .next) = .ok r'
      ∧ r'.dispatched = r.dispatched ++ r.rxPktMsgq.items.map unpackMsg := by
  generalize hitems : r.rxPktMsgq.items = items
  induction items generalizing r with
  | nil => exact ⟨r, rfl, (List.append_nil _).symm⟩
  | cons msg rest ih =>
      rw [List.length_cons, List.replicate_succ, run_cons, rxStep, ok_bind, step_next hrunning,
        hitems]
      dsimp only
      obtain ⟨r', hr', hdispatched⟩ := @ih
        { r with
          rxPktMsgq := (r.rxPktMsgq.get 1).2, dispatched := r.dispatched ++ [unpackMsg msg] }
        hrunning (by rw [Fifo.get_snd_items, hitems]; rfl)
      refine ⟨r', hr', ?_⟩
      rw [hdispatched, List.map_cons, List.append_assoc]
      rfl

/-- **Left to itself, the work queue dispatches everything that was accepted.** -/
theorem QueueInv.dispatches {r : Receiver} (h : QueueInv r) :
    ∃ r', run rxStep (.ok r) (.start :: List.replicate r.rxPktMsgq.items.length .next) = .ok r'
      ∧ r'.dispatched = r.accepted := by
  rw [run_cons, rxStep, ok_bind, Receiver.step]
  rcases Classical.em (r.rxPktMsgq.items = []) with hempty | hqueued
  · have horder := h.order
    rw [hempty, List.map_nil, List.append_nil] at horder
    rw [hempty]
    split
    · exact ⟨_, rfl, horder⟩
    · exact ⟨_, rfl, horder⟩
  · by_cases hrunning : r.handlerRunning = true
    · rw [if_neg (by simp [hrunning])]
      obtain ⟨r', hr', hdispatched⟩ := run_handler hrunning
      exact ⟨r', hr', hdispatched.trans h.order⟩
    · have hwork : r.rxDispatchWork = true := (h.awake hqueued).resolve_right hrunning
      rw [if_pos (by simp [hwork, hrunning])]
      obtain ⟨r', hr', hdispatched⟩ :=
        @run_handler { r with rxDispatchWork := false, handlerRunning := true } rfl
      exact ⟨r', hr', hdispatched.trans h.order⟩

/-! ## Streams of frames -/

section Frames

variable {raws : List (List UInt8)}

/-- The frames of some packets, one behind the other. -/
def frames (raws : List (List UInt8)) : List UInt8 := close 0 (raws.map cobs)

theorem frames_clean : ∀ f ∈ raws.map cobs, 0 ∉ f := by
  intro f hf
  obtain ⟨raw, _, rfl⟩ := List.mem_map.mp hf
  exact cobs_clean raw

/-- The ring holds the beginning of a frame, and `isr_cobs_buf` has room for all of it. -/
theorem rest_short (hshort : ∀ raw ∈ raws, raw.length ≤ 262) {s t : List UInt8}
    (h : s ++ t = frames raws) : (rest 0 s).length < cobsBufMax := by
  rcases rest_of_close frames_clean h with hnil | ⟨f, hf, hpre⟩
  · rw [hnil]
    decide
  · obtain ⟨raw, hraw, rfl⟩ := List.mem_map.mp hf
    have hlen := cobs_length raw
    have hle := hpre.length_le
    have := hshort raw hraw
    rw [show cobsBufMax = 302 from rfl]
    omega

/-- **The delimiter of a frame offers its packet to the queue.** -/
theorem frame_delimiter (hshort : ∀ raw ∈ raws, raw.length ≤ 262) {r : Receiver}
    {s t : List UInt8} (hring : r.rxRingBuf.items = rest 0 s) (h : s ++ 0 :: t = frames raws)
    (msg : RxMsg) :
    ∃ raw r', raws[s.count 0]? = some raw ∧ rxStep (.ok r) (.byte 0 msg) = .ok r'
      ∧ r'.rxRingBuf.items = []
      ∧ r'.accepted = if raw ≠ [] ∧ r.rxPktMsgq.items.length < rxQueueDepth
          then r.accepted ++ [raw] else r.accepted := by
  have hlt := rest_short hshort h
  have hframe := rest_of_close_cons frames_clean h
  rw [List.getElem?_map, Option.map_eq_some_iff] at hframe
  obtain ⟨raw, hraw, hcobs⟩ := hframe
  have htaken : r.taken = cobs raw := by
    rw [Receiver.taken, hring, List.take_of_length_le (Nat.le_of_lt hlt), hcobs]
  have hlen : raw.length ≤ 262 := hshort raw (List.mem_of_getElem? hraw)
  obtain ⟨r', hr', hring', _, _, hoff⟩ := uartIsrByte_zero r msg (by
    rw [htaken, decodeTrace_cobs, show decodedPktMax = 300 from rfl]
    dsimp only
    omega)
  refine ⟨raw, r', hraw, hr', ?_, ?_⟩
  · rw [hring', hring, List.drop_of_length_le (Nat.le_of_lt hlt)]
  · rw [htaken, framePacket, decodeTrace_cobs] at hoff
    by_cases hne : raw = []
    · rw [if_neg (by simp [hne])] at hoff ⊢
      exact hoff.2.2
    · rw [if_pos ⟨rfl, List.length_pos_iff.mpr hne⟩, Offered] at hoff
      split at hoff
      · rename_i hroom
        obtain ⟨_, _, _, _, hacc⟩ := hoff
        rw [if_pos ⟨hne, hroom⟩, hacc]
      · rename_i hfull
        rw [if_neg (fun hc => hfull hc.2), hoff.2.2]

/-- A step inside a stream of frames: the ring goes on holding the open piece. -/
theorem frame_step (hshort : ∀ raw ∈ raws, raw.length ≤ 262) {r : Receiver} {s t : List UInt8}
    {e : RxEvent} (hring : r.rxRingBuf.items = rest 0 s)
    (h : s ++ bytesOf [e] ++ t = frames raws) :
    ∃ r', rxStep (.ok r) e = .ok r' ∧ r'.rxRingBuf.items = rest 0 (s ++ bytesOf [e]) := by
  cases e with
  | byte b msg =>
      rw [bytesOf, bytesOf] at h ⊢
      by_cases hb : b = 0
      · subst hb
        rw [List.append_assoc] at h
        obtain ⟨_, r', _, hr', hempty, _⟩ := frame_delimiter hshort hring h msg
        exact ⟨r', hr', by rw [hempty, rest_snoc_self]⟩
      · have hlt := rest_short hshort h
        rw [rest_snoc s hb, List.length_append, List.length_singleton] at hlt
        refine ⟨_, uartIsrByte_ne_zero r msg hb, ?_⟩
        dsimp only
        have hsize : ringBufSize = 512 := rfl
        have hmax : cobsBufMax = 302 := rfl
        rw [Fifo.put_whole (by rw [Fifo.space, hring, List.length_singleton]; omega), hring,
          rest_snoc s hb]
  | start =>
      obtain ⟨r', hr', hkeep, _⟩ := @step_handler r .start (by simp)
      exact ⟨r', hr', by rw [hkeep, hring, show bytesOf [.start] = [] from rfl, List.append_nil]⟩
  | next =>
      obtain ⟨r', hr', hkeep, _⟩ := @step_handler r .next (by simp)
      exact ⟨r', hr', by rw [hkeep, hring, show bytesOf [.next] = [] from rfl, List.append_nil]⟩

theorem frame_run (hshort : ∀ raw ∈ raws, raw.length ≤ 262) {r : Receiver} {s t : List UInt8}
    {es : List RxEvent} (hring : r.rxRingBuf.items = rest 0 s)
    (h : s ++ bytesOf es ++ t = frames raws) :
    ∃ r', run rxStep (.ok r) es = .ok r' ∧ r'.rxRingBuf.items = rest 0 (s ++ bytesOf es) := by
  induction es generalizing r s with
  | nil => exact ⟨r, rfl, by rw [hring, bytesOf, List.append_nil]⟩
  | cons e es ih =>
      have hbytes : bytesOf (e :: es) = bytesOf [e] ++ bytesOf es := bytesOf_append [e] es
      rw [hbytes, ← List.append_assoc] at h
      obtain ⟨r₁, hr₁, hring₁⟩ := @frame_step _ hshort r s (bytesOf es ++ t) e hring
        (by rw [← List.append_assoc]; exact h)
      obtain ⟨r', hr', hring'⟩ := ih hring₁ h
      exact ⟨r', by rw [run_cons, hr₁, hr'], by rw [hring', hbytes, List.append_assoc]⟩

end Frames

/-- What can be said of every state the receiver visits. -/
def QueueSound (s : Except Fault Receiver) : Prop :=
  s = .error (.overrun decodedPktMax decodedPktMax)
    ∨ ∃ r, s = .ok r ∧ QueueInv r
      ∧ ∃ r', run rxStep (.ok r) (.start :: List.replicate r.rxPktMsgq.items.length .next) = .ok r'
        ∧ r'.dispatched = r.accepted

/-- What every step keeps: the invariant and a ring without delimiters, or the one fault. -/
def QueueState (s : Except Fault Receiver) : Prop :=
  s = .error (.overrun decodedPktMax decodedPktMax)
    ∨ ∃ r, s = .ok r ∧ QueueInv r ∧ 0 ∉ r.rxRingBuf.items

theorem queueState_step (s : Except Fault Receiver) (e : RxEvent) (h : QueueState s) :
    QueueState (rxStep s e) := by
  rcases h with rfl | ⟨r, rfl, hinv, hz⟩
  · exact Or.inl rfl
  · rcases Classical.em (delimiterFits (.ok r) e) with hfit | hover
    · obtain ⟨r', hr', hz'⟩ := rxStep_inv ⟨r, rfl, hz⟩ hfit
      exact Or.inr ⟨r', hr', queueInv_step hinv hr', hz'⟩
    · exact Or.inl (rxStep_fault ⟨r, rfl, hz⟩ hover)

theorem QueueState.sound {s : Except Fault Receiver} (h : QueueState s) : QueueSound s := by
  rcases h with hfault | ⟨r, hr, hinv, _⟩
  · exact Or.inl hfault
  · exact Or.inr ⟨r, hr, hinv, hinv.dispatches⟩

/--
**The receive queue loses nothing it has accepted, and accepts whatever fits.**

Whatever bytes arrive and wherever the handler runs between them: what was
dispatched and what is queued are the packets accepted, in order, and what is
queued will be dispatched. In a stream of frames of at most 262 raw bytes no
buffer is overrun, and a packet is accepted at the delimiter of its frame unless
four are queued.
-/
theorem receive_queue (es : List RxEvent) :
    Throughout rxStep QueueSound (.ok Receiver.init) es
      ∧ ∀ raws : List (List UInt8), (∀ raw ∈ raws, raw.length ≤ 262) →
          bytesOf es <+: frames raws →
          ∀ es₁ msg es₂, es = es₁ ++ .byte 0 msg :: es₂ →
            ∃ raw r r', raws[(bytesOf es₁).count 0]? = some raw
              ∧ run rxStep (.ok Receiver.init) es₁ = .ok r
              ∧ rxStep (.ok r) (.byte 0 msg) = .ok r'
              ∧ r'.accepted = if raw ≠ [] ∧ r.rxPktMsgq.items.length < rxQueueDepth
                  then r.accepted ++ [raw] else r.accepted := by
  constructor
  · have hinit : QueueState (.ok Receiver.init) :=
      Or.inr ⟨_, rfl, queueInv_init, by simp [Receiver.init]⟩
    exact throughout_mono (fun s h => h.sound) (throughout_of_invariant queueState_step hinit es)
  · rintro raws hshort ⟨t, ht⟩ es₁ msg es₂ rfl
    have hstream : bytesOf es₁ ++ 0 :: (bytesOf es₂ ++ t) = frames raws := by
      rw [← ht, bytesOf_append, bytesOf]
      simp
    have hring : Receiver.init.rxRingBuf.items = rest 0 [] := by decide
    obtain ⟨r, hr, hring₁⟩ := frame_run hshort hring hstream
    obtain ⟨raw, r', hraw, hr', _, hacc⟩ := frame_delimiter hshort hring₁ hstream msg
    exact ⟨raw, r, r', hraw, hr, hr', hacc⟩

/-- Three frames, the handler running between them: it has dealt with two when the third is queued. -/
theorem receive_queue_frame :
    let msg : RxMsg := Vector.replicate _ 0
    let bytes := List.map (RxEvent.byte · msg)
    let raws : List (List UInt8) := [[0x08, 0x01, 0x00, 0x01], [0x04, 0x02, 0x00, 0x00], [0x11, 0x00]]
    let es₁ := bytes (cobs [0x08, 0x01, 0x00, 0x01]) ++ [.byte 0 msg, .start, .next]
      ++ bytes (cobs [0x04, 0x02, 0x00, 0x00]) ++ [.byte 0 msg, .next, .next]
      ++ bytes (cobs [0x11, 0x00])
    ∃ r r', run rxStep (.ok Receiver.init) es₁ = .ok r ∧ rxStep (.ok r) (.byte 0 msg) = .ok r'
      ∧ r'.accepted = raws ∧ r.dispatched = raws.take 2 := by
  intro msg bytes raws es₁
  obtain ⟨raw, r, r', hraw, hr, hr', hacc⟩ := (receive_queue (es₁ ++ [.byte 0 msg])).2 raws
    (by decide) (by decide +kernel) es₁ msg [] rfl
  have hnext : raw = [0x11, 0x00] := by
    have hget : raws[(bytesOf es₁).count 0]? = some [0x11, 0x00] := by decide +kernel
    exact Option.some.inj (hraw.symm.trans hget)
  have hbefore : (run rxStep (.ok Receiver.init) es₁).toOption.map
      (fun r => (r.accepted, r.dispatched, r.rxPktMsgq.items.length))
        = some (raws.take 2, raws.take 2, 0) := by decide +kernel
  rw [hr] at hbefore
  obtain ⟨hacc₁, hdispatched, hempty⟩ : r.accepted = raws.take 2 ∧ r.dispatched = raws.take 2
      ∧ r.rxPktMsgq.items.length = 0 := by
    simpa [Except.toOption] using hbefore
  refine ⟨r, r', hr, hr', ?_, hdispatched⟩
  rw [hacc, hnext, hempty, hacc₁]
  decide

end MiniHF
