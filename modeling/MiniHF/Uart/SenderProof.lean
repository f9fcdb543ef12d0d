import MiniHF.Uart.TransmitProof

/-!
# Sending while the interrupt runs

A call of `send_uart_data` puts its bytes into the ring and then enables the
transmit interrupt. A pass in between may take the bytes at once and disable the
interrupt, or find it disabled. Neither matters: the interrupt is only ever
disabled over an empty ring, and a call enables it after each put.
-/

namespace MiniHF

open Runs

/-- A call that is not split is `send_uart_data`. -/
theorem senderStep_call (s : Sender) (data : List UInt8) :
    senderStep (senderStep s (.put data)) .enable
      = { s with
          transmit := (sendUartData s.transmit data).2
          accepted := s.accepted ++ data.take (sendUartData s.transmit data).1 } := rfl

/-- A pass over bytes leaves the interrupt as it is, and one over none leaves the ring empty. -/
theorem uartIsrTx_irq (t : Transmit) {contiguous : Nat} (h : 0 < contiguous) (accepted : Nat) :
    (t.txRingBuf.items ≠ [] ∧ (uartIsrTx t contiguous accepted).txIrq = t.txIrq) ∨
      (uartIsrTx t contiguous accepted).txRingBuf.items = [] := by
  unfold uartIsrTx
  dsimp only
  split
  · next hbytes =>
      left
      refine ⟨?_, rfl⟩
      intro hnil
      rw [hnil, List.length_nil, Nat.min_zero] at hbytes
      exact Nat.lt_irrefl 0 hbytes
  · next hnone =>
      right
      have hzero : t.txRingBuf.items.length = 0 := by omega
      exact List.length_eq_zero_iff.mp hzero

/-- The invariant of the two sides. -/
structure Flowing (s : Sender) : Prop where
  /-- What has left and what is in the ring is what the ring has stored. -/
  order : s.transmit.drained ++ s.transmit.txRingBuf.items = s.accepted
  /-- Bytes wait for the interrupt, or for a call that will enable it. -/
  awake : s.transmit.txRingBuf.items ≠ [] → s.enabling = 0 → s.transmit.txIrq = true

theorem flowing_init : Flowing Sender.init := ⟨rfl, fun h => absurd rfl h⟩

theorem flowing_step (s : Sender) (e : SenderEvent) (h : Flowing s) : Flowing (senderStep s e) := by
  cases e with
  | put data =>
      constructor
      · show s.transmit.drained ++ (s.transmit.txRingBuf.put data).items = _
        rw [Fifo.put_items_count, ← List.append_assoc, h.order]
        rfl
      · -- this call has yet to enable the interrupt
        intro _ hzero
        exact absurd hzero (Nat.succ_ne_zero _)
  | enable =>
      rw [senderStep]
      split
      · exact h
      · exact ⟨h.order, fun _ _ => rfl⟩
  | pass contiguous accepted offers =>
      constructor
      · exact (uartIsrTx_moves s.transmit contiguous accepted).1.trans h.order
      · intro hbytes hzero
        rcases uartIsrTx_irq s.transmit offers accepted with ⟨hbefore, hirq⟩ | hempty
        · exact hirq.trans (h.awake hbefore hzero)
        · exact absurd hempty hbytes

/-- A pass hands over bytes from the front of the ring: those that the ring offers in one piece,
64 at most, as far as the UART takes them. Nothing else hands over any. -/
def HandsOver (s : Sender) (e : SenderEvent) : Prop :=
  match e with
  | .pass contiguous accepted _ =>
      let n := min accepted (min (min 64 contiguous) s.transmit.txRingBuf.items.length)
      (senderStep s e).transmit.drained
          = s.transmit.drained ++ s.transmit.txRingBuf.items.take n
        ∧ (senderStep s e).transmit.txRingBuf.items = s.transmit.txRingBuf.items.drop n
  | _ => (senderStep s e).transmit.drained = s.transmit.drained

theorem handsOver (s : Sender) (e : SenderEvent) : HandsOver s e := by
  cases e with
  | put data => rfl
  | enable =>
      show (senderStep s .enable).transmit.drained = s.transmit.drained
      rw [senderStep]
      split <;> rfl
  | pass contiguous accepted offers =>
      dsimp only [HandsOver, senderStep]
      unfold uartIsrTx
      dsimp only
      split
      · exact ⟨rfl, rfl⟩
      · next hnone =>
          -- the ring is empty
          have hzero : min (min 64 contiguous) s.transmit.txRingBuf.items.length = 0 := by omega
          rw [hzero, Nat.min_zero, List.take_zero, List.append_nil, List.drop_zero]
          exact ⟨rfl, rfl⟩

/--
**No byte is lost, doubled or overtaken, and none is left waiting.**

Over every interleaving of calls and transmit passes, what has left and what is in
the ring are the bytes the ring has stored, in their order. Whenever there are bytes
in the ring and no call is between its two steps, the interrupt is enabled. And a pass
hands over what it can.
-/
theorem transmit_order (es : List SenderEvent) :
    Throughout senderStep Flowing Sender.init es ∧ Along senderStep HandsOver Sender.init es :=
  ⟨throughout_of_invariant flowing_step flowing_init es,
    along_of_invariant flowing_step (fun s e _ => handsOver s e) flowing_init es⟩

end MiniHF
