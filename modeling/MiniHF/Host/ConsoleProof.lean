import MiniHF.Host.CodecProof
import MiniHF.Host.ReaderProof
import MiniHF.Radio.ReplyProof
import MiniHF.Uart.Console

/-!
# The reply on the wire

Text between two frames has no delimiter of its own, so it becomes the beginning
of the next frame. That does no harm where a command prints nothing, and it costs
the reply where one does: the text of a starting test signal begins with `tx`, and
what decodes from it does not begin with the header byte.
-/

namespace MiniHF.Host

open Delimited Stuffing

/-! ## What leaves the UART while there is room -/

section Wire

variable (crc16Ccitt : UInt16 → List UInt8 → UInt16) (junk : ∀ n, Vector UInt8 n)

/-- Text and whole frames, in program order. -/
def wire (out : List Output) : List UInt8 :=
  out.flatMap fun
    | .printk text => textBytes text
    | .packet p => frame crc16Ccitt p

/-- The packets of an output fit the length byte. -/
def Short (out : List Output) : Prop := ∀ p, .packet p ∈ out → p.payload.length ≤ 255

theorem lpuart1_room {out : List Output} (hshort : Short out) {t : Transmit}
    (hroom : queued crc16Ccitt junk out ≤ t.txRingBuf.space) :
    lpuart1 crc16Ccitt junk t out = wire crc16Ccitt out := by
  induction out generalizing t with
  | nil => rfl
  | cons o out ih =>
      have hshort' : Short out := fun p hp => hshort p (List.mem_cons_of_mem _ hp)
      cases o with
      | printk text =>
          rw [lpuart1, ih hshort' (by simpa [queued] using hroom)]
          rfl
      | packet p =>
          have hsend := sendPacket_spec crc16Ccitt junk p (hshort p List.mem_cons_self)
          rw [queued, hsend] at hroom
          dsimp only at hroom
          rw [lpuart1, hsend]
          dsimp only [sendUartData]
          -- the ring takes the whole frame, and has room for the rest
          have hcount : t.txRingBuf.putCount (frame crc16Ccitt p)
              = (frame crc16Ccitt p).length := by
            rw [Fifo.putCount]
            omega
          have hspace : (t.txRingBuf.put (frame crc16Ccitt p)).space
              = t.txRingBuf.space - (frame crc16Ccitt p).length := by
            rw [Fifo.space, Fifo.put_whole (by omega), List.length_append, Fifo.space]
            omega
          rw [hcount, List.take_length, ih hshort' (by dsimp only; rw [hspace]; omega)]
          rfl

end Wire

/-! ## Text on the wire -/

/-- No character of a text is sent as a zero byte. -/
def Clean (text : String) : Prop := ∀ c ∈ text.toList, 0 < c.toNat ∧ c.toNat < 256

instance (text : String) : Decidable (Clean text) :=
  List.decidableBAll (fun c : Char => 0 < c.toNat ∧ c.toNat < 256) text.toList

theorem clean_append {s t : String} (hs : Clean s) (ht : Clean t) : Clean (s ++ t) := by
  intro c hc
  rw [String.toList_append, List.mem_append] at hc
  rcases hc with hc | hc
  · exact hs c hc
  · exact ht c hc

theorem clean_nat (n : Nat) : Clean (toString n) := by
  intro c hc
  rw [Nat.toString_eq_repr, Nat.toList_repr] at hc
  have hdigit := Nat.isDigit_of_mem_toDigits (by decide) (by decide) hc
  simp only [Char.isDigit, Bool.and_eq_true, decide_eq_true_eq, ge_iff_le,
    UInt32.le_iff_toNat_le] at hdigit
  have hlow : 48 ≤ c.toNat := hdigit.1
  have hhigh : c.toNat ≤ 57 := hdigit.2
  omega

theorem textBytes_clean {text : String} (h : Clean text) : 0 ∉ textBytes text := by
  intro hmem
  obtain ⟨c, hc, hzero⟩ := List.mem_map.mp hmem
  have hnat := congrArg UInt8.toNat hzero
  obtain ⟨hlow, hhigh⟩ := h c hc
  rw [UInt8.toNat_ofNat_of_lt' hhigh, UInt8.toNat_zero] at hnat
  omega

/-- The texts of a start hold no zero byte. -/
theorem startedText_clean (seq : TxSequence) : Clean (Device.startedText seq) := by
  unfold Device.startedText
  have hflag : Clean (Device.fmtFlag seq.repeats) := by
    cases seq.repeats <;> decide +kernel
  refine clean_append (clean_append (clean_append (clean_append (clean_append (clean_append ?_
    (clean_nat _)) ?_) (clean_nat _)) ?_) hflag) ?_ <;> decide +kernel

/-! ## What the reader makes of it -/

section Reader

variable {crc16Ccitt : UInt16 → List UInt8 → UInt16} {crc16Kermit : List UInt8 → UInt16}
variable {decodeVec : List UInt8 → Option (List UInt8)}

/-- The frame of a packet is recognised as the packet. -/
theorem recognise_frame (hcrc : ∀ l, crc16Ccitt 0 l = crc16Kermit l)
    (hdecode : ∀ y, 0 ∉ y → decodeVec y = unstuff cobsCoding y) {p : Packet}
    (hlen : p.payload.length ≤ 255) :
    recognise decodeVec crc16Kermit (cobs (packetBytes crc16Ccitt p)) = some p := by
  have hne : cobs (packetBytes crc16Ccitt p) ≠ [] :=
    List.ne_nil_of_length_pos (stuff_pos cobsCoding _)
  have hcheck := checkPacket_packetBytes crc16Ccitt hlen []
  rw [List.append_nil] at hcheck
  rw [recognise, if_neg hne, hdecode _ (cobs_clean _), cobs, unstuff_stuff cobsCoding (by decide),
    Option.bind_some, parsePacket_eq hcrc, hcheck]

/-- Whole frames are recognised one after another. -/
theorem packetsOf_wire (hcrc : ∀ l, crc16Ccitt 0 l = crc16Kermit l)
    (hdecode : ∀ y, 0 ∉ y → decodeVec y = unstuff cobsCoding y) {ps : List Packet}
    (hshort : ∀ p ∈ ps, p.payload.length ≤ 255) :
    packetsOf decodeVec crc16Kermit (wire crc16Ccitt (ps.map .packet)) = ps := by
  induction ps with
  | nil => rfl
  | cons p ps ih =>
      obtain ⟨hp, hps⟩ := List.forall_mem_cons.mp hshort
      have hwire : wire crc16Ccitt ((p :: ps).map .packet)
          = cobs (packetBytes crc16Ccitt p) ++ 0 :: wire crc16Ccitt (ps.map .packet) :=
        List.append_assoc (cobs (packetBytes crc16Ccitt p)) [0] _
      rw [hwire, packetsOf, complete_cons_of_clean _ (cobs_clean _), List.filterMap_cons,
        recognise_frame hcrc hdecode hp]
      exact congrArg (p :: ·) (ih hps)

/-- What decodes from text that begins with `tx` does not begin with the header byte. -/
theorem recognise_text (hdecode : ∀ y, 0 ∉ y → decodeVec y = unstuff cobsCoding y)
    {piece : List UInt8} (hclean : 0 ∉ 0x74 :: 0x78 :: piece) :
    recognise decodeVec crc16Kermit (0x74 :: 0x78 :: piece) = none := by
  rw [recognise, if_neg (by simp), hdecode _ hclean]
  cases hx : unstuff cobsCoding (0x74 :: 0x78 :: piece) with
  | none => rfl
  | some x =>
      have hhead : x.getD 0 0 = 0x78 := by
        rw [List.getD_eq_getElem?_getD, ← List.head?_eq_getElem?,
          unstuff_head cobsCoding (by decide) hx]
        rfl
      rw [Option.bind_some, parsePacket]
      split
      · rfl
      · rw [hhead]
        exact if_pos (by decide)

/-! ## The response stored -/

/-- The responses among some packets. -/
def responsesIn (pkts : List Packet) : List Packet := pkts.filter (·.type ≠ debugMsgCmd)

/-- Between two states the reader stores one response packet, and stores it under `id`. -/
def StoresOne (id : UInt16) (r r' : Reader) : Prop :=
  ∃ reply, reply.id = id
    ∧ responsesIn r'.recognised = responsesIn r.recognised ++ [reply]
    ∧ r'.responses = insertResponse r.responses id reply

theorem routeAll_debug {r : Reader} {ps : List Packet} (h : ∀ p ∈ ps, p.type = debugMsgCmd) :
    (r.routeAll ps).responses = r.responses := by
  induction ps generalizing r with
  | nil => rfl
  | cons p ps ih =>
      obtain ⟨hp, hps⟩ := List.forall_mem_cons.mp h
      rw [Reader.routeAll, List.foldl_cons, ← Reader.routeAll, ih hps, Reader.route, if_pos hp]

/-- Debug messages and a response: the response is what the reader stores. -/
theorem storesOne_of_packets {r : Reader} {chunks : List (List UInt8)} {ps : List Packet}
    {reply : Packet} (hr : r.rxBuf = [])
    (hpackets : packetsOf decodeVec crc16Kermit chunks.flatten = ps ++ [reply])
    (hps : ∀ p ∈ ps, p.type = debugMsgCmd) (hreply : reply.type ≠ debugMsgCmd) :
    StoresOne reply.id r (r.reads decodeVec crc16Kermit chunks) := by
  have hreads := reads_spec decodeVec crc16Kermit (r := r) (by rw [hr]; simp) chunks
  rw [hr, List.nil_append, hpackets] at hreads
  refine ⟨reply, rfl, ?_, ?_⟩ <;> rw [hreads] <;> dsimp only
  · have hnone : responsesIn ps = [] := by
      rw [responsesIn, List.filter_eq_nil_iff]
      intro p hp
      simp [hps p hp]
    rw [routeAll_recognised, responsesIn, List.filter_append, List.filter_append, ← responsesIn,
      ← responsesIn, hnone, List.nil_append, List.filter_cons_of_pos (by simpa using hreply)]
    rfl
  · rw [routeAll_append, Reader.routeAll, List.foldl_cons, List.foldl_nil, Reader.route,
      if_neg hreply]
    dsimp only
    rw [routeAll_debug hps]

/-- Where nothing is recognised, nothing is stored. -/
theorem not_storesOne {r : Reader} {chunks : List (List UInt8)} (hr : r.rxBuf = [])
    (hpackets : packetsOf decodeVec crc16Kermit chunks.flatten = []) (id : UInt16) :
    ¬ StoresOne id r (r.reads decodeVec crc16Kermit chunks) := by
  rintro ⟨reply, _, hone, _⟩
  rw [reads_spec decodeVec crc16Kermit (by rw [hr]; simp) chunks, hr, List.nil_append,
    hpackets] at hone
  have hlen := congrArg List.length hone
  rw [List.length_append] at hlen
  exact Nat.ne_of_lt (Nat.lt_succ_self _) hlen

/-! ## The bytes of a command -/

open Device

/-- What comes before the reply of every command but a starting test signal is frames. -/
theorem preamble_packets {p : Packet} {d : Device}
    (h : ¬ (p.type = 0x07 ∧ d.txActive = true ∧ 4 ≤ p.payload.length
      ∧ requestedDuration p.payload ≠ 0)) :
    ∃ ps : List Packet, preamble p d = ps.map .packet
      ∧ ∀ q ∈ ps, q.type = debugMsgCmd ∧ q.payload.length ≤ 255 := by
  rw [preamble]
  by_cases htype : p.type = 0x07
  · have hnone : testSignalFor p.payload d = none := if_neg fun hstart => h ⟨htype, hstart⟩
    rw [if_pos htype, hnone]
    by_cases hactive : d.txActive = true
    · exact ⟨[], by simp [hactive], by simp⟩
    · refine ⟨[debugPacket notActiveText], by simp [hactive], fun q hq => ?_⟩
      rw [List.mem_singleton.mp hq]
      exact ⟨rfl, List.length_take_le _ _⟩
  · exact ⟨[], if_neg htype, by simp⟩

/-- The text of a starting test signal takes the frame of the reply with it. -/
theorem packetsOf_started (hdecode : ∀ y, 0 ∉ y → decodeVec y = unstuff cobsCoding y)
    (seq : TxSequence) (reply : Packet) :
    packetsOf decodeVec crc16Kermit
      (wire crc16Ccitt (stopTexts ++ [.printk (startedText seq), .packet reply])) = [] := by
  let stopping := textBytes "tx_engine: stopping\n"
  let off := textBytes "tx_engine: TX off\n"
  have hwire : wire crc16Ccitt (stopTexts ++ [.printk (startedText seq), .packet reply])
      = (stopping ++ (off ++ (textBytes (startedText seq) ++ cobs (packetBytes crc16Ccitt reply))))
        ++ 0 :: [] := by
    simp [wire, stopTexts, offText, frame, stopping, off]
  have hclean : 0 ∉ stopping ++ (off ++ (textBytes (startedText seq)
      ++ cobs (packetBytes crc16Ccitt reply))) := by
    simp only [List.mem_append, not_or]
    exact ⟨textBytes_clean (by decide +kernel), textBytes_clean (by decide +kernel),
      textBytes_clean (startedText_clean seq), cobs_clean _⟩
  have htext : stopping = 0x74 :: 0x78 :: stopping.drop 2 := by decide +kernel
  have hnone : recognise decodeVec crc16Kermit (stopping ++ (off ++ (textBytes (startedText seq)
      ++ cobs (packetBytes crc16Ccitt reply)))) = none := by
    rw [htext] at hclean ⊢
    exact recognise_text hdecode hclean
  rw [hwire, packetsOf, complete_cons_of_clean _ hclean, List.filterMap_cons, hnone]
  rfl

/-- The packets of the output of a command fit the length byte. -/
theorem short_output {p reply : Packet} (hreply : reply.payload.length ≤ 255) (d : Device) :
    Short (preamble p d ++ [.packet reply]) := by
  intro q hq
  rcases List.mem_append.mp hq with hq | hq
  · rw [preamble] at hq
    split at hq
    · split at hq
      · simp [stopTexts, offText] at hq
      · split at hq
        · simp at hq
        · simp only [List.mem_singleton, Output.packet.injEq] at hq
          rw [hq]
          exact List.length_take_le _ _
    · simp at hq
  · simp only [List.mem_singleton, Output.packet.injEq] at hq
    rw [hq]
    exact hreply

/--
**The host stores the reply, unless a test signal starts.**

The console and the packets share `lpuart1`, and the texts the engine prints on a
start come right before the frame of the ACK, with no delimiter between. The host
cuts one piece at the next zero byte, and it is no packet.
-/
theorem reply_stored (hcrc : ∀ l, crc16Ccitt 0 l = crc16Kermit l)
    (hdecode : ∀ y, 0 ∉ y → decodeVec y = unstuff cobsCoding y)
    {data : List UInt8} {p : Packet} (hp : checkPacket crc16Ccitt data = some p)
    (hreg : Registered p) (hreset : p.type ≠ 0xFD) {d : Device} {t : Transmit}
    {junk : ∀ n, Vector UInt8 n}
    (hroom : queued crc16Ccitt junk (outputSince d (d.parseDispatchPacket crc16Ccitt data))
      ≤ t.txRingBuf.space)
    {r : Reader} (hr : r.rxBuf = []) {chunks : List (List UInt8)}
    (hchunks : chunks.flatten
      = lpuart1 crc16Ccitt junk t (outputSince d (d.parseDispatchPacket crc16Ccitt data))) :
    StoresOne p.id r (r.reads decodeVec crc16Kermit chunks)
      ↔ ¬ (p.type = 0x07 ∧ d.txActive = true ∧ 4 ≤ p.payload.length
        ∧ requestedDuration p.payload ≠ 0) := by
  obtain ⟨reply, hans, hout⟩ := dispatch_out hreg hreset d
  have hsince : outputSince d (d.parseDispatchPacket crc16Ccitt data)
      = preamble p d ++ [.packet reply] := by
    rw [parseDispatchPacket, hp]
    dsimp only
    rw [outputSince, hout, List.drop_left]
  rw [hsince] at hroom hchunks
  rw [lpuart1_room _ _ (short_output hans.short d) hroom] at hchunks
  constructor
  · rintro hstores ⟨htype, hstart⟩
    have hseq : testSignalFor p.payload d
        = some (testSignalSeq (requestedDuration p.payload) d.baseFrequency) := if_pos hstart
    rw [preamble, if_pos htype, hseq, List.append_assoc] at hchunks
    refine not_storesOne hr ?_ p.id hstores
    rw [hchunks]
    exact packetsOf_started hdecode _ reply
  · intro hstart
    obtain ⟨ps, hps, hdebug⟩ := preamble_packets hstart
    have hwire : preamble p d ++ [.packet reply] = (ps ++ [reply]).map .packet := by
      rw [hps, List.map_append]
      rfl
    rw [hwire] at hchunks
    rw [← hans.id]
    refine storesOne_of_packets hr ?_ (fun q hq => (hdebug q hq).1) (hans.type_ne hreg)
    rw [hchunks]
    refine packetsOf_wire hcrc hdecode fun q hq => ?_
    rcases List.mem_append.mp hq with hq | hq
    · exact (hdebug q hq).2
    · rw [List.mem_singleton.mp hq]
      exact hans.short

end Reader

open Device

/-- The host stores the reply to a switch of the relays, read in two pieces. -/
theorem reply_stored_switch :
    let d := boot (fun _ => 0) ⟨126, 6, 4, 12, 30, 59⟩ 0 []
    let p : Packet := { type := 0x08, id := 2, payload := [0x01] }
    let d' := d.parseDispatchPacket Crc16.crc16 (packetBytes Crc16.crc16 p)
    let bytes := lpuart1 Crc16.crc16 (fun n => Vector.replicate n 0) Transmit.init (outputSince d d')
    StoresOne 2 Reader.init
      (Reader.init.reads (unstuff cobsCoding) (Crc16.crc16 0) [bytes.take 1, bytes.drop 1]) :=
  (@reply_stored Crc16.crc16 (Crc16.crc16 0) (unstuff cobsCoding) (fun _ => rfl) (fun _ _ => rfl)
    (packetBytes Crc16.crc16 { type := 0x08, id := 2, payload := [0x01] })
    { type := 0x08, id := 2, payload := [0x01] } (by decide +kernel) (by decide) (by decide)
    (boot (fun _ => 0) ⟨126, 6, 4, 12, 30, 59⟩ 0 []) Transmit.init (fun n => Vector.replicate n 0)
    (by decide +kernel) Reader.init rfl _
    (by simp only [List.flatten_cons, List.flatten_nil, List.append_nil,
      List.take_append_drop])).mpr fun h => absurd h.1 (by decide)

/-- A test signal of one second starts, and the host never sees its ACK. -/
theorem reply_stored_lost :
    let d := trSetTx (boot (fun _ => 0) ⟨126, 6, 4, 12, 30, 59⟩ 0 [])
    let p : Packet := { type := 0x07, id := 3, payload := [0xE8, 0x03, 0x00, 0x00] }
    let d' := d.parseDispatchPacket Crc16.crc16 (packetBytes Crc16.crc16 p)
    let bytes := lpuart1 Crc16.crc16 (fun n => Vector.replicate n 0) Transmit.init (outputSince d d')
    checkPacket Crc16.crc16 (packetBytes Crc16.crc16 p) = some p ∧ Registered p
      ∧ queued Crc16.crc16 (fun n => Vector.replicate n 0) (outputSince d d')
        ≤ Transmit.init.txRingBuf.space
      ∧ replies (outputSince d d') = [{ type := 0xFF, id := 3, payload := [] }]
      ∧ ¬ StoresOne 3 Reader.init
        (Reader.init.reads (unstuff cobsCoding) (Crc16.crc16 0) [bytes]) := by
  refine ⟨by decide +kernel, by decide, by decide +kernel, by decide +kernel, ?_⟩
  exact not_storesOne rfl (by decide +kernel) 3

end MiniHF.Host
