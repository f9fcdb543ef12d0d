import MiniHF.Host.Api
import MiniHF.Link.LinkProof

/-!
# One exchange

On an idle line one call can run to its end: its frame goes down byte by byte, the
handler takes the message, the output goes up, and the reader finds it in the map.
Each stretch of that run is a lemma from one state to the next; no step of it
breaks a frame.
-/

namespace MiniHF.Link

open Buffer Delimited Runs Host Device

section Libs

variable {lib : Libs}

/-- An unbroken run leads from one state to another. -/
def Leads (lib : Libs) (s s' : Ends) : Prop :=
  Reaches (linkStep lib) (unbroken lib) (.ok s) (.ok s')

theorem Leads.refl (lib : Libs) (s : Ends) : Leads lib s s := Reaches.refl ..

theorem Leads.trans {s s' s'' : Ends} (h : Leads lib s s') (h' : Leads lib s' s'') :
    Leads lib s s'' := Reaches.trans h h'

/-- A step that leaves the device alone breaks nothing. -/
theorem leads_plain {s s' : Ends} {e : LinkEvent} (hwhole : s.host.writesWhole lib e)
    (hreset : ¬ s.board.resets lib e) (hsame : s.board.becomes lib e = s.board.device)
    (hstep : s.step lib e = .ok s') : Leads lib s s' := by
  refine Reaches.step (e := e) ?_ hstep
  intro l hl
  cases hl
  refine ⟨hwhole, hreset, ?_⟩
  rw [hsame, outputSince_self]
  trivial

/-! ## Down -/

/-- The bytes of a frame gather in the ring. -/
theorem leads_bytes {f more : List UInt8} {s : Ends} (hf : 0 ∉ f)
    (hinside : s.down.inside = f ++ more) :
    Leads lib s { s with
      down := ⟨s.down.taken ++ f, more⟩
      board := { s.board with receiver := { s.board.receiver with
        rxRingBuf := s.board.receiver.rxRingBuf.put f } } } := by
  induction f generalizing s with
  | nil =>
      rw [List.nil_append] at hinside
      rw [Fifo.put_nil, List.append_nil, ← hinside]
      exact Leads.refl lib s
  | cons b f ih =>
      have hb : b ≠ 0 := fun h => hf (h ▸ List.mem_cons_self)
      let s₁ : Ends := { s with
        down := ⟨s.down.taken ++ [b], f ++ more⟩
        board := { s.board with receiver := { s.board.receiver with
          rxRingBuf := s.board.receiver.rxRingBuf.put [b] } } }
      have hstep : s.step lib (.byte (Vector.replicate _ 0)) = .ok s₁ := by
        rw [Ends.step, Pipe.take_one hinside]
        dsimp only
        rw [Receiver.step, uartIsrByte_ne_zero _ _ hb]
        rfl
      refine (leads_plain (e := .byte (Vector.replicate _ 0)) trivial id rfl hstep).trans ?_
      have hmore := @ih s₁ (fun h => hf (List.mem_cons_of_mem _ h)) rfl
      dsimp only [s₁] at hmore
      rwa [List.append_assoc, ← Fifo.put_append] at hmore

/-- A receiver that waits for the next frame. -/
structure Resting (r : Receiver) : Prop where
  ring : r.rxRingBuf.items = []
  queue : r.rxPktMsgq.items = []
  running : r.handlerRunning = false

/-- **The frame of a request ends up in the queue**, and the handler is on its way. -/
theorem leads_frame (hlib : lib.Lawful) {s : Ends} {p : Packet} (hp : p.payload.length ≤ 255)
    (hinside : s.down.inside = requestBody lib p ++ [0]) (hrest : Resting s.board.receiver) :
    ∃ receiver msg, Leads lib s { s with
        down := ⟨s.down.taken ++ requestBody lib p ++ [0], []⟩, board := { s.board with receiver } }
      ∧ receiver.rxRingBuf.items = [] ∧ receiver.rxPktMsgq.items = [msg]
      ∧ unpackMsg msg = packetBytes lib.crc16Ccitt p
      ∧ receiver.rxDispatchWork = true ∧ receiver.handlerRunning = false := by
  have hlen := requestBody_length hlib hp
  have hmax : cobsBufMax = 302 := rfl
  have hsize : ringBufSize = 512 := rfl
  have hbytes := @leads_bytes lib _ _ s (requestBody_clean hlib p) hinside
  -- what the ring holds at the delimiter is the frame
  let r : Receiver := { s.board.receiver with
    rxRingBuf := s.board.receiver.rxRingBuf.put (requestBody lib p) }
  have hring : r.rxRingBuf.items = requestBody lib p := by
    show (s.board.receiver.rxRingBuf.put (requestBody lib p)).items = requestBody lib p
    rw [Fifo.put_whole (by rw [Fifo.space, hrest.ring, List.length_nil]; omega), hrest.ring,
      List.nil_append]
  have htaken : r.taken = requestBody lib p := by
    rw [Receiver.taken, hring, List.take_of_length_le (Nat.le_of_lt hlen)]
  obtain ⟨receiver, hstep, hring', hrunning, _, hoff⟩ := uartIsrByte_zero r (Vector.replicate _ 0)
    (by rw [htaken]; exact requestBody_fits hlib hp)
  rw [htaken, framePacket_requestBody hlib, Offered,
    if_pos (by rw [show r.rxPktMsgq.items = [] from hrest.queue]; decide)] at hoff
  obtain ⟨msg, hmsg, hqueue, hwork, _⟩ := hoff
  refine ⟨receiver, msg, hbytes.trans (leads_plain (e := .byte (Vector.replicate _ 0)) trivial id rfl ?_), ?_,
    ?_, hmsg, hwork, hrunning.trans hrest.running⟩
  · rw [Ends.step, Pipe.take_one rfl]
    dsimp only
    rw [Receiver.step, show uartIsrByte _ _ 0 = .ok receiver from hstep]
    rfl
  · rw [hring', hring, List.drop_of_length_le (Nat.le_of_lt hlen)]
  · rw [hqueue, show r.rxPktMsgq.items = [] from hrest.queue, List.nil_append]

/-! ## In the device -/

/-- What an output puts into an empty ring, and what of it goes out at once. -/
theorem emit_texts (t : Transmit) (texts : List String) (out : List Output) {t' : Transmit}
    {bytes : List UInt8} (h : emit lib t out = .ok (t', bytes)) :
    emit lib t (texts.map .printk ++ out) = .ok (t', texts.flatMap textBytes ++ bytes) := by
  induction texts with
  | nil => exact h
  | cons text texts ih =>
      rw [List.map_cons, List.cons_append, emit, ih, ok_bind, List.flatMap_cons, List.append_assoc]
      rfl

/-- The frames of some packets, one behind the other. -/
def replyFrames (lib : Libs) (ps : List Packet) : List UInt8 :=
  ps.flatMap (MiniHF.frame lib.crc16Ccitt)

theorem emit_packets {ps : List Packet} {t : Transmit} (hshort : ∀ p ∈ ps, p.payload.length ≤ 255)
    (hroom : (replyFrames lib ps).length ≤ t.txRingBuf.space) :
    ∃ t', emit lib t (ps.map .packet) = .ok (t', [])
      ∧ t'.txRingBuf.items = t.txRingBuf.items ++ replyFrames lib ps := by
  induction ps generalizing t with
  | nil => exact ⟨t, rfl, (List.append_nil _).symm⟩
  | cons p ps ih =>
      obtain ⟨hp, hps⟩ := List.forall_mem_cons.mp hshort
      rw [replyFrames, List.flatMap_cons, List.length_append, ← replyFrames] at hroom
      have hput : (t.txRingBuf.put (MiniHF.frame lib.crc16Ccitt p)).items
          = t.txRingBuf.items ++ MiniHF.frame lib.crc16Ccitt p := Fifo.put_whole (by omega)
      have hsend := step_send lib.crc16Ccitt lib.junk t p hp
      rw [txStep, ok_bind] at hsend
      obtain ⟨t', hemit, hring⟩ := @ih
        { t with
          txRingBuf := t.txRingBuf.put (MiniHF.frame lib.crc16Ccitt p), txIrq := true
          sent := t.sent ++ [p] } hps (by
            dsimp only
            rw [Fifo.space] at hroom ⊢
            rw [hput, List.length_append]
            omega)
      refine ⟨t', by rw [List.map_cons, emit, hsend, ok_bind, hemit], ?_⟩
      rw [hring]
      dsimp only
      rw [hput, replyFrames, replyFrames, List.flatMap_cons, List.append_assoc]

/-- Frames that fit in a row break nothing. -/
theorem emits_packets {crc16Ccitt : UInt16 → List UInt8 → UInt16} {ps : List Packet}
    {q : Fifo UInt8 txRingBufSize}
    (hroom : (ps.flatMap (MiniHF.frame crc16Ccitt)).length ≤ q.space) :
    Emits crc16Ccitt q (ps.map .packet) := by
  induction ps generalizing q with
  | nil => trivial
  | cons p ps ih =>
      rw [List.flatMap_cons, List.length_append] at hroom
      refine ⟨Or.inl (by omega), ih ?_⟩
      have hput := @Fifo.put_whole _ _ q (MiniHF.frame crc16Ccitt p) (by omega)
      rw [Fifo.space] at hroom ⊢
      rw [hput, List.length_append]
      omega

theorem emits_texts {crc16Ccitt : UInt16 → List UInt8 → UInt16} {q : Fifo UInt8 txRingBufSize}
    (hempty : q.items = []) (texts : List String) {out : List Output}
    (h : Emits crc16Ccitt q out) : Emits crc16Ccitt q (texts.map .printk ++ out) := by
  induction texts with
  | nil => exact h
  | cons text texts ih => exact ⟨hempty, ih⟩

/-- The output of a request: texts first, then packets, and all of the frames fit the ring. -/
structure Sends (lib : Libs) (out : List Output) (texts : List String) (ps : List Packet) :
    Prop where
  out : out = texts.map .printk ++ ps.map .packet
  texts : ∀ text ∈ texts, EngineText text
  short : ∀ p ∈ ps, p.payload.length ≤ 255
  fits : (replyFrames lib ps).length ≤ txRingBufSize

/-- **The handler deals with the one message there is**, and rests again. -/
theorem leads_handled {s : Ends} {msg : RxMsg} {p : Packet}
    (hring : s.board.receiver.rxRingBuf.items = []) (hqueue : s.board.receiver.rxPktMsgq.items = [msg])
    (hmsg : unpackMsg msg = packetBytes lib.crc16Ccitt p) (hp : p.payload.length ≤ 255)
    (hreset : p.type ≠ 0xFD) (hwork : s.board.receiver.rxDispatchWork = true)
    (hrunning : s.board.receiver.handlerRunning = false)
    (htx : s.board.transmit.txRingBuf.items = []) {texts : List String} {ps : List Packet}
    (hsends : Sends lib (outputSince s.board.device (s.board.device.dispatch p)) texts ps) :
    ∃ board, Leads lib s { s with board, up := s.up.send (texts.flatMap textBytes) }
      ∧ Resting board.receiver ∧ board.device = s.board.device.dispatch p
      ∧ board.transmit.txRingBuf.items = replyFrames lib ps := by
  have hcheck : checkPacket lib.crc16Ccitt (unpackMsg msg) = some p := by
    rw [hmsg]
    exact checkPacket_request hp
  have hdispatch : s.board.device.parseDispatchPacket lib.crc16Ccitt (unpackMsg msg)
      = s.board.device.dispatch p := by
    rw [parseDispatchPacket, hcheck]
  have hspace : s.board.transmit.txRingBuf.space = txRingBufSize := by
    rw [Fifo.space, htx]
    rfl
  -- the work queue starts the handler
  let r₁ : Receiver := { s.board.receiver with rxDispatchWork := false, handlerRunning := true }
  let s₁ : Ends := { s with board := { s.board with receiver := r₁ } }
  have hstart : Leads lib s s₁ := by
    refine leads_plain (e := .start) trivial id rfl ?_
    rw [Ends.step, Receiver.step, if_pos (by rw [hwork, hrunning]; rfl)]
    rfl
  -- it takes the message
  obtain ⟨t', hemit, hitems⟩ := @emit_packets lib _ s.board.transmit hsends.short
    (by rw [hspace]; exact hsends.fits)
  have hemit := emit_texts s.board.transmit texts (ps.map .packet) hemit
  rw [List.append_nil, ← hsends.out] at hemit
  let r₂ : Receiver := { r₁ with
    rxPktMsgq := (r₁.rxPktMsgq.get 1).2, dispatched := r₁.dispatched ++ [unpackMsg msg] }
  let b₂ : Board := { s.board with
    receiver := r₂, device := s.board.device.dispatch p, transmit := t'
    answered := s.board.answered
      ++ (replies (outputSince s.board.device (s.board.device.dispatch p))).map (p, ·) }
  let s₂ : Ends := { s₁ with board := b₂, up := s.up.send (texts.flatMap textBytes) }
  have hnext : Leads lib s₁ s₂ := by
    have hstep : r₁.step .next = .ok r₂ := by
      have h := step_next (r := r₁) rfl
      rwa [show r₁.rxPktMsgq.items = [msg] from hqueue] at h
    refine Reaches.step (e := .next) ?_ ?_
    · intro l hl
      cases hl
      refine ⟨trivial, ?_, ?_⟩
      · rintro ⟨_, msg', more, p', hitems', hcheck', htype⟩
        rw [show s₁.board.receiver.rxPktMsgq.items = [msg] from hqueue] at hitems'
        cases hitems'
        rw [hcheck, Option.some.injEq] at hcheck'
        exact hreset (hcheck' ▸ htype)
      · have hbecomes : s₁.board.becomes lib .next = s.board.device.dispatch p := by
          rw [Board.becomes, show s₁.board.receiver.rxPktMsgq.items = [msg] from hqueue]
          exact hdispatch
        rw [hbecomes]
        show Emits lib.crc16Ccitt s.board.transmit.txRingBuf
          (outputSince s.board.device (s.board.device.dispatch p))
        rw [hsends.out]
        exact emits_texts htx texts (emits_packets (by rw [hspace]; exact hsends.fits))
    · show s₁.onBoard (s₁.board.next lib) = .ok s₂
      rw [Board.next, show s₁.board.receiver.step .next = .ok r₂ from hstep, ok_bind,
        show s₁.board.receiver.rxPktMsgq.items = [msg] from hqueue]
      show s₁.onBoard (Board.handle lib { s₁.board with receiver := r₂ } (unpackMsg msg)) = .ok s₂
      rw [Board.handle, hcheck]
      dsimp only
      rw [if_neg hreset, Board.become, hdispatch]
      show s₁.onBoard (emit lib s.board.transmit
        (outputSince s.board.device (s.board.device.dispatch p)) >>= _) = .ok s₂
      rw [hemit]
      rfl
  -- and finds the queue empty
  have hempty : r₂.rxPktMsgq.items = [] := by
    show s.board.receiver.rxPktMsgq.items.drop 1 = []
    rw [hqueue]
    rfl
  let r₃ : Receiver := { r₂ with handlerRunning := false }
  have hlast : Leads lib s₂ { s₂ with board := { b₂ with receiver := r₃ } } := by
    have hstep : r₂.step .next = .ok r₃ := by
      have h := step_next (r := r₂) rfl
      rwa [hempty] at h
    refine leads_plain (e := .next) trivial ?_ ?_ ?_
    · rintro ⟨_, msg', more, p', hitems', _⟩
      rw [show s₂.board.receiver.rxPktMsgq.items = [] from hempty] at hitems'
      cases hitems'
    · rw [Board.becomes, show s₂.board.receiver.rxPktMsgq.items = [] from hempty]
    · show s₂.onBoard (s₂.board.next lib) = .ok _
      rw [Board.next, show s₂.board.receiver.step .next = .ok r₃ from hstep, ok_bind,
        show s₂.board.receiver.rxPktMsgq.items = [] from hempty]
      show s₂.onBoard (.ok ({ b₂ with receiver := r₃ }, [])) = .ok _
      rw [Ends.onBoard, ok_bind]
      show Except.ok { s₂ with board := { b₂ with receiver := r₃ }, up := s₂.up.send [] } = .ok _
      rw [Pipe.send_nil]
  refine ⟨{ b₂ with receiver := r₃ }, (hstart.trans hnext).trans hlast, ⟨?_, hempty, rfl⟩, rfl, ?_⟩
  · exact hring
  · show t'.txRingBuf.items = replyFrames lib ps
    rw [hitems, htx, List.nil_append]

/-! ## Up -/

/-- **Passes empty the ring into the line.** -/
theorem leads_passes {n : Nat} {s : Ends} (h : s.board.transmit.txRingBuf.items.length ≤ 64 * n) :
    ∃ transmit, Leads lib s { s with
        board := { s.board with transmit }, up := s.up.send s.board.transmit.txRingBuf.items }
      ∧ transmit.txRingBuf.items = [] := by
  induction n generalizing s with
  | zero =>
      have hnil : s.board.transmit.txRingBuf.items = [] := List.length_eq_zero_iff.mp (by omega)
      refine ⟨s.board.transmit, ?_, hnil⟩
      rw [hnil, Pipe.send_nil]
      exact Leads.refl lib s
  | succ n ih =>
      obtain ⟨hbytes, _⟩ := pass_bytes s.board txRingBufSize 64
      let s₁ : Ends := { s with
        board := (s.board.pass txRingBufSize 64).1
        up := s.up.send (s.board.pass txRingBufSize 64).2 }
      have hstep : Leads lib s s₁ := leads_plain (e := .pass txRingBufSize 64) trivial id rfl rfl
      have hring : s₁.board.transmit.txRingBuf.items.length ≤ 64 * n := by
        have hsize : txRingBufSize = 512 := rfl
        show (uartIsrTx s.board.transmit txRingBufSize 64).txRingBuf.items.length ≤ 64 * n
        unfold uartIsrTx
        dsimp only
        split
        · simp only [Fifo.get, List.length_drop]
          omega
        · dsimp only
          omega
      obtain ⟨transmit, hleads, hempty⟩ := ih hring
      refine ⟨transmit, hstep.trans ?_, hempty⟩
      have hup : s₁.up.send s₁.board.transmit.txRingBuf.items
          = s.up.send s.board.transmit.txRingBuf.items := by
        show (s.up.send _).send _ = _
        rw [← hbytes, Pipe.send, Pipe.send, Pipe.send, List.append_assoc]
      rwa [hup] at hleads

/-- Frame by frame the reader comes to the end of its loop. -/
theorem drain_takeFrame (r : Reader) :
    (takeFrame lib r).drain lib.decodeVec lib.crc16Kermit
      = r.drain lib.decodeVec lib.crc16Kermit := by
  rw [takeFrame]
  cases h : r.rxBuf.findIdx? (· == 0x00) with
  | none => rfl
  | some idx => exact (drain_some _ _ h).symm

theorem leads_drained {s : Ends} (hclean : 0 ∉ s.host.reader.rxBuf) :
    Leads lib s { s with host := { s.host with
      reader := s.host.reader.drain lib.decodeVec lib.crc16Kermit } } := by
  rw [drain_none _ _ (findIdx_clean hclean)]
  exact Leads.refl lib s

/-- The reader deals with every complete frame it has. -/
theorem leads_frames {n : Nat} {s : Ends} (h : s.host.reader.rxBuf.length ≤ n) :
    Leads lib s { s with host := { s.host with
      reader := s.host.reader.drain lib.decodeVec lib.crc16Kermit } } := by
  induction n generalizing s with
  | zero => exact leads_drained (by rw [List.length_eq_zero_iff.mp (Nat.le_zero.mp h)]; simp)
  | succ n ih =>
      rcases @takeFrame_spec lib s.host.reader with ⟨hclean, _⟩ | ⟨x, y, hxy, _, htake⟩
      · exact leads_drained hclean
      · let s₁ : Ends := { s with host := { s.host with reader := takeFrame lib s.host.reader } }
        have hstep : Leads lib s s₁ := leads_plain (e := .frame) trivial id rfl rfl
        have hlen : s₁.host.reader.rxBuf.length ≤ n := by
          show (takeFrame lib s.host.reader).rxBuf.length ≤ n
          rw [htake]
          rw [hxy, List.length_append, List.length_cons] at h
          dsimp only
          omega
        have hmore := ih hlen
        rw [show s₁.host.reader.drain lib.decodeVec lib.crc16Kermit
          = s.host.reader.drain lib.decodeVec lib.crc16Kermit from drain_takeFrame _] at hmore
        exact hstep.trans hmore

/-- **The reader reads all there is**, and deals with it. -/
theorem leads_read {s : Ends} (hopen : s.host.portOpen = true) (hbuf : s.host.reader.rxBuf = []) :
    Leads lib s { s with
      up := ⟨s.up.taken ++ s.up.inside, []⟩
      host := { s.host with
        reader := ({ s.host.reader with rxBuf := s.up.inside } : Reader).drain lib.decodeVec
          lib.crc16Kermit } } := by
  let s₁ : Ends := { s with
    up := ⟨s.up.taken ++ s.up.inside, []⟩
    host := { s.host with reader := { s.host.reader with rxBuf := s.up.inside } } }
  have hfetch : Leads lib s s₁ := by
    refine leads_plain (e := .fetch s.up.inside.length) trivial id rfl ?_
    rw [Ends.step, HostEnd.fetch, if_pos (by rw [hopen, hbuf]; rfl), Pipe.take,
      List.take_of_length_le (Nat.le_refl _), List.drop_of_length_le (Nat.le_refl _), hbuf]
    rfl
  exact hfetch.trans (@leads_frames lib _ s₁ (Nat.le_refl _))

end Libs

end MiniHF.Link
