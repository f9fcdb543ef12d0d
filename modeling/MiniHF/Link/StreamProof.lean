import MiniHF.Link.OutputProof
import MiniHF.Protocol.CobsCanonicalProof
import MiniHF.Uart.QueueProof
import MiniHF.Uart.TransmitProof

/-!
# The two streams

What goes down is a sequence of frames of requests; what goes up is a sequence of
pieces, each a frame with the text in front of it that got there first. The reader
makes a packet of a piece exactly where there is no text, so whatever it recognises
the device sent, in that order.
-/

namespace MiniHF.Link

open Buffer Delimited Stuffing Host Device

/-- What the two ends rely on: one CRC, and COBS as its documentation has it. -/
structure Libs.Lawful (lib : Libs) : Prop where
  crc : ∀ l, lib.crc16Ccitt 0 l = lib.crc16Kermit l
  /-- An encoding holds no zero byte and stands for what was encoded. -/
  encode : ∀ x, 0 ∉ lib.encode x ∧ unstuff cobsCoding (lib.encode x) = some x
  decode : ∀ y, 0 ∉ y → lib.decodeVec y = unstuff cobsCoding y

/-- A stream of closed frames and a piece still open, cut at the delimiters. -/
theorem complete_close_append {fs : List (List UInt8)} (hfs : ∀ f ∈ fs, 0 ∉ f) {x : List UInt8}
    (hx : 0 ∉ x) : complete 0 (close 0 fs ++ x) = fs := by
  rw [complete_append, complete_close hfs, rest_close, List.nil_append, complete_of_clean hx,
    List.append_nil]

section Libs

variable {lib : Libs}

/-! ## Down -/

/-- The COBS bytes of a request's frame, as the host makes them. -/
def requestBody (lib : Libs) (p : Packet) : List UInt8 := lib.encode (packetBytes lib.crc16Ccitt p)

theorem framePacket_eq (hlib : lib.Lawful) {p : Packet} (h : p.payload.length ≤ 255) :
    framePacket lib p = some (requestBody lib p ++ [0]) := by
  rw [framePacket, buildPacket_eq hlib.crc p h]
  rfl

theorem requestBody_clean (hlib : lib.Lawful) (p : Packet) : 0 ∉ requestBody lib p :=
  (hlib.encode _).1

/-- **Any encoding is short**: it is the canonical one, or that without its last code. -/
theorem encode_length (hlib : lib.Lawful) (x : List UInt8) :
    (lib.encode x).length ≤ x.length + x.length / 254 + 1 := by
  obtain ⟨hz, hx⟩ := hlib.encode x
  have hcobs : (stuff cobsCoding x).length ≤ _ := cobs_length x
  rcases stuff_of_unstuff cobsCoding (by decide) hz hx with h | ⟨h, -⟩
  · rw [← h]
    exact hcobs
  · rw [h, List.length_append] at hcobs
    omega

theorem requestBody_length (hlib : lib.Lawful) {p : Packet} (h : p.payload.length ≤ 255) :
    (requestBody lib p).length < cobsBufMax := by
  have hlen := encode_length hlib (packetBytes lib.crc16Ccitt p)
  rw [packetBytes_length, show packetSize = 5 from rfl] at hlen
  rw [requestBody, show cobsBufMax = 302 from rfl]
  omega

/-- The device decodes the frame of a request to its bytes. -/
theorem framePacket_requestBody (hlib : lib.Lawful) (p : Packet) :
    MiniHF.framePacket (requestBody lib p) = some (packetBytes lib.crc16Ccitt p) := by
  rw [MiniHF.framePacket, requestBody, decodeTrace_of_unstuff (hlib.encode _).2]
  refine if_pos ⟨rfl, ?_⟩
  rw [packetBytes_length]
  omega

theorem requestBody_fits (hlib : lib.Lawful) {p : Packet} (h : p.payload.length ≤ 255) :
    (decodeTrace (requestBody lib p)).1.length ≤ decodedPktMax := by
  rw [requestBody, decodeTrace_of_unstuff (hlib.encode _).2, show decodedPktMax = 300 from rfl]
  dsimp only
  rw [packetBytes_length, show packetSize = 5 from rfl]
  omega

theorem checkPacket_request {crc16Ccitt : UInt16 → List UInt8 → UInt16} {p : Packet}
    (h : p.payload.length ≤ 255) : checkPacket crc16Ccitt (packetBytes crc16Ccitt p) = some p := by
  have hcheck := checkPacket_packetBytes crc16Ccitt h []
  rwa [List.append_nil] at hcheck

/-- The frames of some requests, one behind the other. -/
def requests (lib : Libs) (ps : List Packet) : List UInt8 := close 0 (ps.map (requestBody lib))

theorem requests_clean (hlib : lib.Lawful) (ps : List Packet) :
    ∀ f ∈ ps.map (requestBody lib), 0 ∉ f := by
  intro f hf
  obtain ⟨p, _, rfl⟩ := List.mem_map.mp hf
  exact requestBody_clean hlib p

theorem requests_append (ps qs : List Packet) :
    requests lib (ps ++ qs) = requests lib ps ++ requests lib qs := by
  rw [requests, List.map_append, close_append]
  rfl

theorem requests_singleton (p : Packet) : requests lib [p] = requestBody lib p ++ [0] := by
  rw [requests, List.map_singleton, close, List.flatMap_singleton]

/-- Wherever the stream is cut, the open piece fits the ring and the COBS buffer. -/
theorem requests_rest (hlib : lib.Lawful) {ps : List Packet}
    (hshort : ∀ p ∈ ps, p.payload.length ≤ 255) {s : List UInt8} (h : s <+: requests lib ps) :
    (rest 0 s).length < cobsBufMax := by
  obtain ⟨t, ht⟩ := h
  rcases rest_of_close (requests_clean hlib ps) ht with hnil | ⟨f, hf, hpre⟩
  · rw [hnil]
    decide
  · obtain ⟨p, hp, rfl⟩ := List.mem_map.mp hf
    exact Nat.lt_of_le_of_lt hpre.length_le (requestBody_length hlib (hshort p hp))

/-- Where the stream has a delimiter, the open piece is the frame of a request. -/
theorem requests_frame (hlib : lib.Lawful) {ps : List Packet} {s : List UInt8}
    (h : s ++ [0] <+: requests lib ps) : ∃ p ∈ ps, rest 0 s = requestBody lib p := by
  obtain ⟨t, ht⟩ := h
  rw [List.append_assoc] at ht
  have hframe := rest_of_close_cons (requests_clean hlib ps) ht
  obtain ⟨p, hp, hbody⟩ := List.mem_map.mp (List.mem_of_getElem? hframe)
  exact ⟨p, hp, hbody.symm⟩

/-- What the frames complete so far decode to are the first requests. -/
theorem requests_decoded (hlib : lib.Lawful) {ps : List Packet} {s : List UInt8}
    (h : s <+: requests lib ps) :
    (complete 0 s).filterMap MiniHF.framePacket <+: ps.map (packetBytes lib.crc16Ccitt) := by
  have hpre := complete_prefix 0 h
  rw [requests, complete_close (requests_clean hlib ps)] at hpre
  have hall : (ps.map (requestBody lib)).filterMap MiniHF.framePacket
      = ps.map (packetBytes lib.crc16Ccitt) := by
    rw [List.filterMap_map, ← List.filterMap_eq_map]
    exact congrArg (List.filterMap · ps) (funext fun p => framePacket_requestBody hlib p)
  rw [← hall]
  exact hpre.filterMap _

/-! ## Up -/

/-- Text in front of a frame: none, or it begins as those of the engine do. -/
def Ahead (x : List UInt8) : Prop := 0 ∉ x ∧ (x = [] ∨ ∃ y, x = 0x74 :: 0x78 :: y)

theorem ahead_nil : Ahead [] := ⟨List.not_mem_nil, Or.inl rfl⟩

theorem ahead_text {text : String} (h : EngineText text) : Ahead (textBytes text) := by
  obtain ⟨hclean, y, hy⟩ := h
  exact ⟨textBytes_clean hclean, Or.inr ⟨y.map fun c => UInt8.ofNat c.toNat, by rw [textBytes, hy]; rfl⟩⟩

theorem Ahead.append {x y : List UInt8} (hx : Ahead x) (hy : Ahead y) : Ahead (x ++ y) := by
  refine ⟨fun hmem => ?_, ?_⟩
  · rcases List.mem_append.mp hmem with hmem | hmem
    · exact hx.1 hmem
    · exact hy.1 hmem
  · rcases hx.2 with rfl | ⟨x, rfl⟩
    · exact hy.2
    · exact Or.inr ⟨x ++ y, rfl⟩

/-- The pieces of the upward stream: frames with what stands in front of them. -/
def pieces (crc16Ccitt : UInt16 → List UInt8 → UInt16) (segs : List (List UInt8 × Packet)) :
    List (List UInt8) :=
  segs.map fun g => g.1 ++ frameBody crc16Ccitt g.2

/-- A stream of frames of packets that were sent, in order, perhaps with text in front of them. -/
structure Upward (lib : Libs) (stream : List UInt8) (sent : List Packet)
    (segs : List (List UInt8 × Packet)) (tail : List UInt8) : Prop where
  stream : stream = close 0 (pieces lib.crc16Ccitt segs) ++ tail
  ahead : ∀ g ∈ segs, Ahead g.1
  short : ∀ g ∈ segs, g.2.payload.length ≤ 255
  /-- Text no frame has followed yet. -/
  tail : Ahead tail
  sent : (segs.map Prod.snd).Sublist sent

/-- The stream is made that way. -/
def Framed (lib : Libs) (stream : List UInt8) (sent : List Packet) : Prop :=
  ∃ segs tail, Upward lib stream sent segs tail

theorem framed_nil (lib : Libs) : Framed lib [] [] :=
  ⟨[], [], rfl, by simp, by simp, ahead_nil, List.nil_sublist _⟩

/-- Text goes in front of the next frame. -/
theorem Framed.text {stream : List UInt8} {sent : List Packet} (h : Framed lib stream sent)
    {x : List UInt8} (hx : Ahead x) : Framed lib (stream ++ x) sent := by
  obtain ⟨segs, tail, hup⟩ := h
  exact ⟨segs, tail ++ x, by rw [hup.stream, List.append_assoc], hup.ahead, hup.short,
    hup.tail.append hx, hup.sent⟩

/-- A frame closes the open piece. -/
theorem Framed.frame {stream : List UInt8} {sent : List Packet} (h : Framed lib stream sent)
    {p : Packet} (hp : p.payload.length ≤ 255) :
    Framed lib (stream ++ MiniHF.frame lib.crc16Ccitt p) (sent ++ [p]) := by
  obtain ⟨segs, tail, hup⟩ := h
  refine ⟨segs ++ [(tail, p)], [], ?_, ?_, ?_, ahead_nil, ?_⟩
  · rw [hup.stream, pieces, pieces, List.map_append, close_append, List.append_assoc,
      List.append_nil]
    simp [close, MiniHF.frame, frameBody]
  · intro g hg
    rcases List.mem_append.mp hg with hg | hg
    · exact hup.ahead g hg
    · rw [List.mem_singleton.mp hg]
      exact hup.tail
  · intro g hg
    rcases List.mem_append.mp hg with hg | hg
    · exact hup.short g hg
    · rw [List.mem_singleton.mp hg]
      exact hp
  · rw [List.map_append]
    exact hup.sent.append (List.Sublist.refl _)

/-- A frame that found no room is sent, but not part of the stream. -/
theorem Framed.dropped {stream : List UInt8} {sent : List Packet} (h : Framed lib stream sent)
    (p : Packet) : Framed lib stream (sent ++ [p]) := by
  obtain ⟨segs, tail, hup⟩ := h
  exact ⟨segs, tail, hup.stream, hup.ahead, hup.short, hup.tail,
    hup.sent.trans (List.sublist_append_left _ _)⟩

/-- **The reader makes a packet of a frame exactly where there is no text in front of it.** -/
theorem recognise_piece (hlib : lib.Lawful) {x : List UInt8} (hx : Ahead x) {p : Packet}
    (hp : p.payload.length ≤ 255) :
    recognise lib.decodeVec lib.crc16Kermit (x ++ frameBody lib.crc16Ccitt p)
      = if x = [] then some p else none := by
  rcases hx.2 with rfl | ⟨y, rfl⟩
  · rw [if_pos rfl, List.nil_append]
    exact recognise_frame hlib.crc hlib.decode hp
  · rw [if_neg (by simp), List.cons_append, List.cons_append]
    refine recognise_text hlib.decode ?_
    intro hmem
    rw [← List.cons_append, ← List.cons_append, List.mem_append] at hmem
    rcases hmem with hmem | hmem
    · exact hx.1 hmem
    · exact cobs_clean _ hmem

theorem pieces_clean {segs : List (List UInt8 × Packet)} (h : ∀ g ∈ segs, Ahead g.1) :
    ∀ f ∈ pieces lib.crc16Ccitt segs, 0 ∉ f := by
  intro f hf hmem
  obtain ⟨g, hg, rfl⟩ := List.mem_map.mp hf
  rcases List.mem_append.mp hmem with hmem | hmem
  · exact (h g hg).1 hmem
  · exact cobs_clean _ hmem

theorem recognise_pieces (hlib : lib.Lawful) {segs : List (List UInt8 × Packet)}
    (hahead : ∀ g ∈ segs, Ahead g.1) (hshort : ∀ g ∈ segs, g.2.payload.length ≤ 255) :
    (pieces lib.crc16Ccitt segs).filterMap (recognise lib.decodeVec lib.crc16Kermit)
      = (segs.filter (·.1 = [])).map Prod.snd := by
  induction segs with
  | nil => rfl
  | cons g segs ih =>
      obtain ⟨hg, hahead⟩ := List.forall_mem_cons.mp hahead
      obtain ⟨hp, hshort⟩ := List.forall_mem_cons.mp hshort
      rw [pieces, List.map_cons, List.filterMap_cons, recognise_piece hlib hg hp, ← pieces,
        ih hahead hshort]
      by_cases hnil : g.1 = [] <;> simp [hnil]

/-- The packets of such a stream are the packets of its frames that stand alone. -/
theorem packetsOf_pieces (hlib : lib.Lawful) {stream : List UInt8} {sent : List Packet}
    {segs : List (List UInt8 × Packet)} {tail : List UInt8} (h : Upward lib stream sent segs tail) :
    packetsOf lib.decodeVec lib.crc16Kermit stream
      = (segs.filter (·.1 = [])).map Prod.snd := by
  rw [packetsOf, h.stream, complete_close_append (pieces_clean h.ahead) h.tail.1,
    recognise_pieces hlib h.ahead h.short]

/-- **What the reader recognises was sent**, in this order. -/
theorem Framed.recognised (hlib : lib.Lawful) {stream : List UInt8} {sent : List Packet}
    (h : Framed lib stream sent) {s : List UInt8} (hs : s <+: stream) :
    (packetsOf lib.decodeVec lib.crc16Kermit s).Sublist sent := by
  obtain ⟨segs, tail, hup⟩ := h
  have hall : (packetsOf lib.decodeVec lib.crc16Kermit stream).Sublist sent := by
    rw [packetsOf_pieces hlib hup]
    exact (List.filter_sublist.map Prod.snd).trans hup.sent
  have hcomplete := complete_prefix 0 hs
  exact (hcomplete.filterMap _).sublist.trans hall

/-! ## Into the ring -/

/-- Text goes out while no frame is in the ring, and every frame finds room for all of it or for
none of it. -/
def Emits (crc16Ccitt : UInt16 → List UInt8 → UInt16) :
    Fifo UInt8 txRingBufSize → List Output → Prop
  | _, [] => True
  | q, .printk _ :: out => q.items = [] ∧ Emits crc16Ccitt q out
  | q, .packet p :: out =>
      ((frame crc16Ccitt p).length ≤ q.space ∨ q.space = 0)
        ∧ Emits crc16Ccitt (q.put (frame crc16Ccitt p)) out

/-- **What the device puts out keeps the stream framed.** -/
theorem emit_framed {out : List Output} {t : Transmit} {stream : List UInt8}
    (hshort : Host.Short out) (htexts : EngineTexts out) (hemits : Emits lib.crc16Ccitt t.txRingBuf out)
    (hup : Framed lib (stream ++ t.txRingBuf.items) t.sent) :
    ∃ t' bytes, emit lib t out = .ok (t', bytes)
      ∧ Framed lib (stream ++ bytes ++ t'.txRingBuf.items) t'.sent
      ∧ t'.sent = t.sent ++ packetsIn out := by
  induction out generalizing t stream with
  | nil => exact ⟨t, [], rfl, by rwa [List.append_nil], (List.append_nil _).symm⟩
  | cons o out ih =>
      have hshort' : Host.Short out := fun p hp => hshort p (List.mem_cons_of_mem _ hp)
      have htexts' : EngineTexts out := fun text ht => htexts text (List.mem_cons_of_mem _ ht)
      cases o with
      | printk text =>
          obtain ⟨hempty, hemits⟩ := hemits
          rw [hempty, List.append_nil] at hup
          have hup' := hup.text (ahead_text (htexts text List.mem_cons_self))
          obtain ⟨t', bytes, hemit, hframed, hsent⟩ :=
            @ih _ (stream ++ textBytes text) hshort' htexts' hemits
              (by rw [hempty, List.append_nil]; exact hup')
          refine ⟨t', textBytes text ++ bytes, ?_, by rwa [← List.append_assoc], hsent⟩
          rw [emit, hemit]
          rfl
      | packet p =>
          obtain ⟨hroom, hemits⟩ := hemits
          have hp : p.payload.length ≤ 255 := hshort p List.mem_cons_self
          have hsend := step_send lib.crc16Ccitt lib.junk t p hp
          rw [txStep, ok_bind] at hsend
          have hup' : Framed lib (stream ++ (t.txRingBuf.put (frame lib.crc16Ccitt p)).items)
              (t.sent ++ [p]) := by
            rcases hroom with hfit | hfull
            · rw [Fifo.put_whole hfit, ← List.append_assoc]
              exact hup.frame hp
            · rw [Fifo.put_full hfull]
              exact hup.dropped p
          obtain ⟨t', bytes, hemit, hframed, hsent⟩ := @ih
            { t with
              txRingBuf := t.txRingBuf.put (frame lib.crc16Ccitt p), txIrq := true
              sent := t.sent ++ [p] }
            stream hshort' htexts' hemits hup'
          refine ⟨t', bytes, ?_, hframed, ?_⟩
          · rw [emit, hsend, ok_bind]
            exact hemit
          · rw [hsent, packetsIn_cons_packet, List.append_assoc]
            rfl

/-- A pass takes bytes from the front of the ring. -/
theorem pass_bytes (b : Board) (contiguous accepted : Nat) :
    (b.pass contiguous accepted).2 ++ (b.pass contiguous accepted).1.transmit.txRingBuf.items
        = b.transmit.txRingBuf.items
      ∧ (b.pass contiguous accepted).1.transmit.sent = b.transmit.sent := by
  obtain ⟨hmoves, hsent⟩ := uartIsrTx_moves b.transmit contiguous accepted
  refine ⟨?_, hsent⟩
  have hsuffix : (uartIsrTx b.transmit contiguous accepted).txRingBuf.items
      <:+ b.transmit.txRingBuf.items := by
    unfold uartIsrTx
    dsimp only
    split
    · exact List.drop_suffix _ _
    · exact List.suffix_refl _
  obtain ⟨front, hfront⟩ := hsuffix
  rw [Board.pass]
  dsimp only
  rw [← hfront, List.length_append, Nat.add_sub_cancel, List.take_left]

end Libs

end MiniHF.Link
