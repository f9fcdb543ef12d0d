import MiniHF.Lib.Crc16
import MiniHF.Protocol.PacketProof
import MiniHF.Uart.ReceiverProof

/-!
# Resynchronisation at a delimiter

After noise and a delimiter the next frame is received, if the delimiter emptied
the ring. It does so when the ring held no more than `isr_cobs_buf` takes, and
only then: what stays behind is put in front of the frame, and
`stuff_of_unstuff` says that no byte string longer than a frame decodes to the
same packet.
-/

namespace MiniHF

open Buffer Runs Stuffing

/-- A run that has not faulted met only delimiters whose frames fit. -/
theorem along_of_run {r r' : Receiver} {es : List RxEvent} (hz : 0 ∉ r.rxRingBuf.items)
    (h : run rxStep (.ok r) es = .ok r') : Along rxStep delimiterFits (.ok r) es := by
  refine (noFault_iff_along ⟨r, rfl, hz⟩ es).mp (throughout_of_last (fun s e hs => ?_) ⟨r', h⟩)
  cases s with
  | ok r => exact ⟨r, rfl⟩
  | error f =>
      obtain ⟨r, hr⟩ := hs
      simp [rxStep] at hr

/-- How full the ring is after some bytes, if it held `n` before them. -/
def ringFill (n : Nat) : List UInt8 → Nat
  | [] => n
  | b :: bs => ringFill (if b = 0 then n - cobsBufMax else min (n + 1) ringBufSize) bs

theorem ringFill_run {r r' : Receiver} {es : List RxEvent} (hz : 0 ∉ r.rxRingBuf.items)
    (h : run rxStep (.ok r) es = .ok r') :
    r'.rxRingBuf.items.length = ringFill r.rxRingBuf.items.length (bytesOf es)
      ∧ 0 ∉ r'.rxRingBuf.items := by
  induction es generalizing r with
  | nil =>
      rw [run_nil, Except.ok.injEq] at h
      subst h
      exact ⟨rfl, hz⟩
  | cons e es ih =>
      obtain ⟨r₁, hr₁, hz₁⟩ := rxStep_inv ⟨r, rfl, hz⟩ (along_of_run hz h).1
      rw [run_cons, hr₁] at h
      obtain ⟨hlen, hz'⟩ := ih hz₁ h
      refine ⟨?_, hz'⟩
      rw [hlen, show e :: es = [e] ++ es from rfl, bytesOf_append]
      rcases rxStep_cases hr₁ with ⟨hbyte, hring, _⟩ | ⟨b, hb, hbyte, rfl⟩ | ⟨hbyte, hring, _⟩
      · rw [hbyte, List.singleton_append, ringFill, if_pos rfl, hring, List.length_drop]
      · have := r.rxRingBuf.fits
        rw [hbyte, List.singleton_append, ringFill, if_neg hb]
        congr 1
        simp [Fifo.put_items, Fifo.space]
        omega
      · rw [hbyte, hring]
        rfl

/-- Each delimiter queues one packet at most. -/
theorem queue_growth {r r' : Receiver} {es : List RxEvent} (hz : 0 ∉ r.rxRingBuf.items)
    (h : run rxStep (.ok r) es = .ok r') :
    r'.rxPktMsgq.items.length ≤ r.rxPktMsgq.items.length + (bytesOf es).count 0 := by
  induction es generalizing r with
  | nil =>
      rw [run_nil, Except.ok.injEq] at h
      subst h
      exact Nat.le_add_right _ _
  | cons e es ih =>
      obtain ⟨r₁, hr₁, hz₁⟩ := rxStep_inv ⟨r, rfl, hz⟩ (along_of_run hz h).1
      rw [run_cons, hr₁] at h
      have hle := ih hz₁ h
      rw [show e :: es = [e] ++ es from rfl, bytesOf_append, List.count_append]
      rcases rxStep_cases hr₁ with ⟨hbyte, _, hoff⟩ | ⟨b, _, _, rfl⟩ | ⟨_, _, _, hqueue⟩
      · have hone : r₁.rxPktMsgq.items.length ≤ r.rxPktMsgq.items.length + 1 := by
          cases hp : framePacket r.taken with
          | none =>
              rw [hp] at hoff
              rw [hoff.1]
              exact Nat.le_succ _
          | some x =>
              rw [hp, Offered] at hoff
              split at hoff
              · obtain ⟨m, _, hq, _⟩ := hoff
                rw [hq, List.length_append]
                exact Nat.le_refl _
              · rw [hoff.1]
                exact Nat.le_succ _
        rw [hbyte, List.count_singleton_self]
        omega
      · dsimp only at hle
        omega
      · omega

/-- A packet the queue accepted at a delimiter is the one the frame decodes to. -/
theorem framePacket_of_accepted {r r' : Receiver} {msg : RxMsg} {raw : List UInt8}
    (h : uartIsrByte r msg 0 = .ok r') (hroom : r.rxPktMsgq.items.length < rxQueueDepth)
    (hacc : r'.accepted = r.accepted ++ [raw]) : framePacket r.taken = some raw := by
  have hoff : Offered r r' (framePacket r.taken) := by
    rcases rxStep_cases (e := .byte 0 msg) h with ⟨_, _, hoff⟩ | ⟨b, hb, hbyte, _⟩ | ⟨hbyte, _⟩
    · exact hoff
    · exact absurd (List.singleton_inj.mp hbyte).symm hb
    · cases hbyte
  cases hp : framePacket r.taken with
  | none =>
      rw [hp] at hoff
      rw [hoff.2.2] at hacc
      exact absurd hacc (by simp)
  | some x =>
      rw [hp, Offered, if_pos hroom] at hoff
      obtain ⟨_, _, _, _, hacc'⟩ := hoff
      rw [hacc, List.append_right_inj, List.singleton_inj] at hacc'
      rw [hacc']

/--
The frame is received: the bytes `noise` and a delimiter are processed, then the
bytes `frame` queue nothing, and the delimiter behind them queues the packet `raw`.
-/
def Received (r : Receiver) (noise frame : List RxEvent) (msg msg' : RxMsg)
    (raw : List UInt8) : Prop :=
  ∃ r₁ r₂ r₃, run rxStep (.ok r) (noise ++ [.byte 0 msg]) = .ok r₁
    ∧ run rxStep (.ok r₁) frame = .ok r₂ ∧ r₂.accepted = r₁.accepted
    ∧ uartIsrByte r₂ msg' 0 = .ok r₃ ∧ r₃.accepted = r₁.accepted ++ [raw]
    ∧ ∃ m, unpackMsg m = raw ∧ r₃.rxPktMsgq.items = r₂.rxPktMsgq.items ++ [m]

/-- The decoder stays inside its buffer, and the delimiter leaves nothing in the ring. -/
def noiseFits (r : Receiver) (noise : List RxEvent) (msg : RxMsg) : Prop :=
  Along rxStep delimiterFits (.ok r) (noise ++ [.byte 0 msg])
    ∧ ringFill r.rxRingBuf.items.length (bytesOf noise) ≤ cobsBufMax

/-- **A frame never decodes to its packet behind something else.** -/
theorem residue_nil {residue raw : List UInt8} (hraw : raw.length ≤ 262)
    (hz : 0 ∉ residue)
    (h : framePacket ((residue ++ cobs raw).take cobsBufMax) = some raw) : residue = [] := by
  have hmax : cobsBufMax = 302 := rfl
  have hlen := cobs_length raw
  rw [framePacket] at h
  split at h
  · rename_i hok
    rw [Option.some.injEq] at h
    have hun : unstuff cobsCoding ((residue ++ cobs raw).take cobsBufMax) = some raw := by
      rw [unstuff_eq_trace, if_pos hok.1, h]
    have hclean : 0 ∉ (residue ++ cobs raw).take cobsBufMax := by
      intro hmem
      rcases List.mem_append.mp (List.mem_of_mem_take hmem) with hmem | hmem
      · exact hz hmem
      · exact cobs_clean raw hmem
    -- the bytes decoded are the frame's own, up to one code byte
    have hsame : (cobs raw).length = ((residue ++ cobs raw).take cobsBufMax).length
        ∨ (cobs raw).length = ((residue ++ cobs raw).take cobsBufMax).length + 1 := by
      rcases stuff_of_unstuff cobsCoding (by decide) hclean hun with heq | ⟨heq, _⟩
      · exact Or.inl (congrArg List.length heq)
      · have hl := congrArg List.length heq
        rw [List.length_append, List.length_singleton] at hl
        exact Or.inr hl
    rw [List.length_take, List.length_append] at hsame
    exact List.length_eq_zero_iff.mp (by omega)
  · simp at h

/-- What the ring holds when the delimiter of a frame arrives. -/
theorem frame_in_ring {r₁ r₂ : Receiver} {frame : List RxEvent} {raw : List UInt8}
    (hraw : raw.length ≤ 262) (hbytes : bytesOf frame = cobs raw)
    (hroom : r₁.rxRingBuf.items.length ≤ ringBufSize - cobsBufMax)
    (h : run rxStep (.ok r₁) frame = .ok r₂) :
    r₂.rxRingBuf.items = r₁.rxRingBuf.items ++ cobs raw ∧ r₂.accepted = r₁.accepted := by
  have hring : ringBufSize - cobsBufMax = 210 := rfl
  have hsize : ringBufSize = 512 := rfl
  have hlen := cobs_length raw
  obtain ⟨r', hr', hput, hacc⟩ := run_collect r₁ (by rw [hbytes]; exact cobs_clean raw)
  rw [h, Except.ok.injEq] at hr'
  subst hr'
  refine ⟨?_, hacc⟩
  rw [hput, hbytes, Fifo.put_whole]
  rw [Fifo.space]
  omega

/-- The state after the noise and the delimiter. -/
theorem run_noise {r : Receiver} {noise : List RxEvent} {msg : RxMsg}
    (hz : 0 ∉ r.rxRingBuf.items)
    (hfit : Along rxStep delimiterFits (.ok r) (noise ++ [.byte 0 msg])) :
    ∃ r₁, run rxStep (.ok r) (noise ++ [.byte 0 msg]) = .ok r₁ ∧ 0 ∉ r₁.rxRingBuf.items
      ∧ r₁.rxRingBuf.items.length
          = ringFill r.rxRingBuf.items.length (bytesOf noise) - cobsBufMax := by
  obtain ⟨r₁, hr₁⟩ := throughout_last ((noFault_iff_along ⟨r, rfl, hz⟩ _).mpr hfit)
  obtain ⟨hlen, hz₁⟩ := ringFill_run hz hr₁
  refine ⟨r₁, hr₁, hz₁, ?_⟩
  have hfill : ∀ n, ringFill n (bytesOf noise ++ [0]) = ringFill n (bytesOf noise) - cobsBufMax := by
    induction bytesOf noise with
    | nil => exact fun n => rfl
    | cons b bs ih => exact fun n => ih _
  rw [hlen, bytesOf_append, ← hfill]
  rfl

/-- A ring of 512 bytes keeps at most 210 of them at a delimiter. -/
theorem ringFill_le {n : Nat} (bs : List UInt8) (h : n ≤ ringBufSize) :
    ringFill n bs ≤ ringBufSize := by
  induction bs generalizing n with
  | nil => exact h
  | cons b bs ih =>
      refine ih ?_
      split <;> omega

section Resync

variable {r : Receiver} {noise frame : List RxEvent} {msg msg' : RxMsg} {raw : List UInt8}

/-- The noise emptied the ring, or the packet would have been another one. -/
theorem noiseFits_of_received (hz : 0 ∉ r.rxRingBuf.items) (hraw : raw.length ≤ 262)
    (hbytes : bytesOf frame = cobs raw)
    (hroom : ∀ r₂, run rxStep (.ok r) (noise ++ [.byte 0 msg] ++ frame) = .ok r₂ →
      r₂.rxPktMsgq.items.length < rxQueueDepth)
    (h : Received r noise frame msg msg' raw) : noiseFits r noise msg := by
  obtain ⟨r₁, r₂, r₃, hr₁, hr₂, hacc₂, hr₃, hacc₃, _⟩ := h
  have hmax : cobsBufMax = 302 := rfl
  have hsize : ringBufSize = 512 := rfl
  have hfill := ringFill_le (bytesOf noise) r.rxRingBuf.fits
  have hfit := along_of_run hz hr₁
  refine ⟨hfit, ?_⟩
  obtain ⟨r₁', hr₁', hz₁, hlen₁⟩ := run_noise hz hfit
  rw [hr₁, Except.ok.injEq] at hr₁'
  subst hr₁'
  obtain ⟨hring, _⟩ := frame_in_ring hraw hbytes (by omega) hr₂
  have hpacket : framePacket r₂.taken = some raw :=
    framePacket_of_accepted hr₃ (hroom r₂ (by rw [run_append, hr₁, hr₂])) (by rw [hacc₃, hacc₂])
  rw [Receiver.taken, hring] at hpacket
  rw [residue_nil hraw hz₁ hpacket, List.length_nil] at hlen₁
  omega

/-- Behind an emptied ring the frame is alone, and decodes to its packet. -/
theorem received_of_noiseFits (hz : 0 ∉ r.rxRingBuf.items) (hne : 0 < raw.length)
    (hraw : raw.length ≤ 262) (hbytes : bytesOf frame = cobs raw)
    (hroom : ∀ r₂, run rxStep (.ok r) (noise ++ [.byte 0 msg] ++ frame) = .ok r₂ →
      r₂.rxPktMsgq.items.length < rxQueueDepth)
    (h : noiseFits r noise msg) : Received r noise frame msg msg' raw := by
  obtain ⟨hfit, hle⟩ := h
  have hmax : cobsBufMax = 302 := rfl
  have hsize : ringBufSize = 512 := rfl
  have hlen := cobs_length raw
  obtain ⟨r₁, hr₁, hz₁, hlen₁⟩ := run_noise hz hfit
  obtain ⟨r₂, hr₂, _⟩ := run_collect r₁ (by rw [hbytes]; exact cobs_clean raw)
  obtain ⟨hring, hacc₂⟩ := frame_in_ring hraw hbytes (by omega) hr₂
  have hnil : r₁.rxRingBuf.items = [] := List.length_eq_zero_iff.mp (by omega)
  have htaken : r₂.taken = cobs raw := by
    rw [Receiver.taken, hring, hnil, List.nil_append, List.take_of_length_le (by omega)]
  have hpacket : framePacket r₂.taken = some raw := by
    rw [htaken, framePacket, decodeTrace_cobs, if_pos ⟨rfl, hne⟩]
  obtain ⟨r₃, hr₃, _, _, _, hoff⟩ := uartIsrByte_zero r₂ msg' (by
    rw [htaken, decodeTrace_cobs, show decodedPktMax = 300 from rfl]
    exact Nat.le_trans hraw (by decide))
  rw [hpacket, Offered, if_pos (hroom r₂ (by rw [run_append, hr₁, hr₂]))] at hoff
  obtain ⟨m, hm, hq, _, hacc₃⟩ := hoff
  exact ⟨r₁, r₂, r₃, hr₁, hr₂, hacc₂, hr₃, by rw [hacc₃, hacc₂], m, hm, hq⟩

/--
**Resynchronisation.**

From any reachable state, after any noise and a delimiter, the next frame puts
exactly its packet on the queue if and only if the noise overran no buffer and
left no more in the ring than one delimiter takes.
-/
theorem resynchronises {past : List RxEvent} (hreach : run rxStep (.ok Receiver.init) past = .ok r)
    (hne : 0 < raw.length) (hraw : raw.length ≤ 262) (hbytes : bytesOf frame = cobs raw)
    (hroom : ∀ r₂, run rxStep (.ok r) (noise ++ [.byte 0 msg] ++ frame) = .ok r₂ →
      r₂.rxPktMsgq.items.length < rxQueueDepth) :
    Received r noise frame msg msg' raw ↔ noiseFits r noise msg := by
  have hz : 0 ∉ r.rxRingBuf.items := (ringFill_run (by simp [Receiver.init]) hreach).2
  exact ⟨noiseFits_of_received hz hraw hbytes hroom,
    received_of_noiseFits hz hne hraw hbytes hroom⟩

end Resync

/-- After boot there is room for the packets of fewer delimiters than the queue is deep. -/
theorem queue_room {es : List RxEvent} (hfew : (bytesOf es).count 0 < rxQueueDepth) (r : Receiver)
    (h : run rxStep (.ok Receiver.init) es = .ok r) :
    r.rxPktMsgq.items.length < rxQueueDepth := by
  refine Nat.lt_of_le_of_lt (queue_growth (by simp [Receiver.init]) h) ?_
  rw [show Receiver.init.rxPktMsgq.items.length = 0 from rfl, Nat.zero_add]
  exact hfew

/-- A frame that breaks off, noise with a delimiter in it, and a whole frame. -/
theorem resynchronises_after_boot :
    let msg : RxMsg := Vector.replicate _ 0
    let bytes := List.map (RxEvent.byte · msg)
    let raw := packetBytes Crc16.crc16 { type := 0x08, id := 1, payload := [1] }
    ∃ r, run rxStep (.ok Receiver.init) (bytes ((cobs raw).take 5)) = .ok r
      ∧ r.rxRingBuf.items = (cobs raw).take 5
      ∧ Received r (bytes [0x07, 0x00, 0xFF, 0x55]) (bytes (cobs raw)) msg msg raw := by
  intro msg bytes raw
  have hpast : bytesOf (bytes ((cobs raw).take 5)) = (cobs raw).take 5 := by decide +kernel
  obtain ⟨r, hr, hring, -⟩ := @run_collect Receiver.init (bytes ((cobs raw).take 5))
    (by rw [hpast]; decide +kernel)
  have hitems : r.rxRingBuf.items = (cobs raw).take 5 := by
    rw [hring, hpast]
    decide +kernel
  refine ⟨r, hr, hitems, ?_⟩
  have hroom : ∀ r₂, run rxStep (.ok r)
      (bytes [0x07, 0x00, 0xFF, 0x55] ++ [.byte 0 msg] ++ bytes (cobs raw)) = .ok r₂ →
      r₂.rxPktMsgq.items.length < rxQueueDepth := by
    intro r₂ hr₂
    rw [← hr, ← run_append] at hr₂
    exact queue_room (by decide +kernel) r₂ hr₂
  have hgoes : (run rxStep (.ok Receiver.init) (bytes ((cobs raw).take 5)
      ++ (bytes [0x07, 0x00, 0xFF, 0x55] ++ [.byte 0 msg]))).isOk = true := by decide +kernel
  rw [run_append, hr] at hgoes
  refine (resynchronises hr (by decide +kernel) (by decide +kernel) (by decide +kernel) hroom).mpr
    ⟨?_, ?_⟩
  · cases hend : run rxStep (.ok r) (bytes [0x07, 0x00, 0xFF, 0x55] ++ [.byte 0 msg]) with
    | ok r₁ => exact along_of_run (by rw [hitems]; decide +kernel) hend
    | error f =>
        rw [hend] at hgoes
        cases hgoes
  · rw [hitems]
    decide +kernel

/-- A frame of 303 bytes leaves one of them in the ring, and the next packet is lost. -/
theorem resynchronises_residue :
    let msg : RxMsg := Vector.replicate _ 0
    let bytes := List.map (RxEvent.byte · msg)
    let noise := bytes (0xFF :: List.replicate 302 0x01)
    let raw := packetBytes Crc16.crc16 { type := 0x02, id := 1, payload := [] }
    (∀ r₂, run rxStep (.ok Receiver.init) (noise ++ [.byte 0 msg] ++ bytes (cobs raw)) = .ok r₂ →
        r₂.rxPktMsgq.items.length < rxQueueDepth)
      ∧ 0 < raw.length ∧ raw.length ≤ 262 ∧ bytesOf (bytes (cobs raw)) = cobs raw
      ∧ ¬ Received Receiver.init noise (bytes (cobs raw)) msg msg raw := by
  intro msg bytes noise raw
  have hroom : ∀ r₂, run rxStep (.ok Receiver.init)
      (noise ++ [.byte 0 msg] ++ bytes (cobs raw)) = .ok r₂ →
      r₂.rxPktMsgq.items.length < rxQueueDepth := queue_room (by decide +kernel)
  have hbytes : bytesOf (bytes (cobs raw)) = cobs raw := by decide +kernel
  refine ⟨hroom, by decide +kernel, by decide +kernel, hbytes, fun h => ?_⟩
  have hfits := noiseFits_of_received (by simp [Receiver.init]) (by decide +kernel) hbytes hroom h
  exact absurd hfits.2 (by decide +kernel)

end MiniHF
