import MiniHF.Host.Reader
import MiniHF.Lib.Delimited
import MiniHF.Protocol.PacketProof

/-!
# Chunks do not matter to the reader

The reader works on the stream alone: after any reads its buffer is the open piece
of everything that arrived, and it has recognised what the complete pieces decode
to. `drain_spec` says this of one drain, and `complete_append` and `rest_append`
carry it over a sequence of reads in `reads_spec`.
-/

namespace MiniHF.Host

open Delimited

section Loop

variable (decodeVec : List UInt8 → Option (List UInt8)) (crc16Kermit : List UInt8 → UInt16)

/-- The packet a piece between two delimiters stands for, if it stands for one. -/
def recognise (piece : List UInt8) : Option Packet :=
  if piece = [] then none else (decodeVec piece).bind (parsePacket crc16Kermit)

/-- The packets of a stream: those its complete pieces stand for. -/
def packetsOf (stream : List UInt8) : List Packet :=
  (complete 0 stream).filterMap (recognise decodeVec crc16Kermit)

/-- What the reader has passed on after some packets. -/
def Reader.routeAll (r : Reader) (pkts : List Packet) : Reader := pkts.foldl Reader.route r

theorem frame_eq (r : Reader) (piece : List UInt8) :
    r.frame decodeVec crc16Kermit piece
      = r.routeAll (recognise decodeVec crc16Kermit piece).toList := by
  rw [Reader.frame, recognise]
  cases piece with
  | nil => rfl
  | cons b piece =>
      rw [if_neg (by simp), if_neg (by simp)]
      cases decodeVec (b :: piece) with
      | none => rfl
      | some decoded =>
          dsimp only [Option.bind_some]
          cases parsePacket crc16Kermit decoded <;> rfl

theorem route_setRxBuf (r : Reader) (pkt : Packet) (rxBuf : List UInt8) :
    { r with rxBuf }.route pkt = { r.route pkt with rxBuf } := by
  unfold Reader.route
  dsimp only
  split <;> rfl

theorem routeAll_setRxBuf (r : Reader) (pkts : List Packet) (rxBuf : List UInt8) :
    { r with rxBuf }.routeAll pkts = { r.routeAll pkts with rxBuf } := by
  induction pkts generalizing r with
  | nil => rfl
  | cons pkt pkts ih =>
      rw [Reader.routeAll, List.foldl_cons, route_setRxBuf]
      exact ih (r.route pkt)

theorem findIdx_clean {s : List UInt8} (h : 0 ∉ s) : s.findIdx? (· == 0x00) = none := by
  rw [List.findIdx?_eq_none_iff]
  intro b hb
  simp only [beq_eq_false_iff_ne, ne_eq]
  exact fun he => h (he ▸ hb)

theorem findIdx_split {x : List UInt8} (y : List UInt8) (h : 0 ∉ x) :
    (x ++ 0 :: y).findIdx? (· == 0x00) = some x.length := by
  rw [List.findIdx?_append, findIdx_clean h]
  simp [List.findIdx?_cons]

theorem drain_none {r : Reader} (h : r.rxBuf.findIdx? (· == 0x00) = none) :
    r.drain decodeVec crc16Kermit = r := by
  rw [Reader.drain]
  split
  · rename_i hsome
    rw [h] at hsome
    simp at hsome
  · rfl

theorem drain_some {r : Reader} {idx : Nat} (h : r.rxBuf.findIdx? (· == 0x00) = some idx) :
    r.drain decodeVec crc16Kermit
      = (({ r with rxBuf := r.rxBuf.drop (idx + 1) } : Reader).frame decodeVec crc16Kermit
          ((r.rxBuf.take (idx + 1)).take ((r.rxBuf.take (idx + 1)).length - 1))).drain
            decodeVec crc16Kermit := by
  rw [Reader.drain]
  split
  · rename_i idx' hsome
    obtain rfl : idx' = idx := Option.some.inj (hsome.symm.trans h)
    rfl
  · rename_i hnone
    rw [h] at hnone
    simp at hnone

/-- **One drain** recognises the complete pieces and leaves the open one. -/
theorem drain_spec (r : Reader) :
    r.drain decodeVec crc16Kermit
      = { r.routeAll (packetsOf decodeVec crc16Kermit r.rxBuf) with rxBuf := rest 0 r.rxBuf } := by
  induction hn : r.rxBuf.length using Nat.strongRecOn generalizing r with
  | _ n ih =>
      rcases clean_or_split 0 r.rxBuf with hclean | ⟨x, y, hxy, hx⟩
      · rw [drain_none _ _ (findIdx_clean hclean), packetsOf, complete_of_clean hclean,
          rest_of_clean hclean]
        rfl
      · have hidx : r.rxBuf.findIdx? (· == 0x00) = some x.length := by
          rw [hxy]
          exact findIdx_split y hx
        have htake : r.rxBuf.take (x.length + 1) = x ++ [0] := by
          rw [hxy, List.take_append, List.take_of_length_le (Nat.le_succ _)]
          simp
        have hdrop : r.rxBuf.drop (x.length + 1) = y := by
          rw [hxy, List.drop_append]
          simp
        -- the first frame is `x`, and the loop goes on with `y`
        rw [drain_some _ _ hidx, htake, hdrop, List.length_append, List.length_singleton,
          Nat.add_sub_cancel, List.take_left, frame_eq, routeAll_setRxBuf]
        have hlen : y.length < n := by
          rw [← hn, hxy, List.length_append, List.length_cons]
          omega
        rw [ih y.length hlen _ rfl]
        dsimp only
        rw [routeAll_setRxBuf, packetsOf, packetsOf, hxy, complete_cons_of_clean y hx,
          rest_append_cons, List.filterMap_cons]
        cases recognise decodeVec crc16Kermit x <;> rfl

theorem routeAll_append (r : Reader) (ps qs : List Packet) :
    r.routeAll (ps ++ qs) = (r.routeAll ps).routeAll qs := List.foldl_append

/-- The reader after some reads, as a function of the stream alone. -/
def readerOf (stream : List UInt8) : Reader :=
  { Reader.init.routeAll (packetsOf decodeVec crc16Kermit stream) with rxBuf := rest 0 stream }

theorem packetsOf_append (stream bytes : List UInt8) :
    packetsOf decodeVec crc16Kermit (stream ++ bytes)
      = packetsOf decodeVec crc16Kermit stream
        ++ packetsOf decodeVec crc16Kermit (rest 0 stream ++ bytes) := by
  rw [packetsOf, complete_append, List.filterMap_append, packetsOf, packetsOf]

/-- One read, from a buffer that holds no delimiter. -/
theorem read_spec {r : Reader} (hclean : 0 ∉ r.rxBuf) (bytes : List UInt8) :
    r.read decodeVec crc16Kermit bytes
      = { r.routeAll (packetsOf decodeVec crc16Kermit (r.rxBuf ++ bytes)) with
          rxBuf := rest 0 (r.rxBuf ++ bytes) } := by
  rw [Reader.read]
  split
  · rw [drain_spec, routeAll_setRxBuf]
  · -- a read that gives nothing does not even start the loop
    rename_i hlen
    rw [List.length_eq_zero_iff.mp (show bytes.length = 0 by omega), List.append_nil, packetsOf,
      complete_of_clean hclean, rest_of_clean hclean]
    rfl

/-- **After any reads the reader is where the stream puts it.** -/
theorem reads_spec {r : Reader} (hclean : 0 ∉ r.rxBuf) (chunks : List (List UInt8)) :
    r.reads decodeVec crc16Kermit chunks
      = { r.routeAll (packetsOf decodeVec crc16Kermit (r.rxBuf ++ chunks.flatten)) with
          rxBuf := rest 0 (r.rxBuf ++ chunks.flatten) } := by
  induction chunks generalizing r with
  | nil =>
      rw [List.flatten_nil, List.append_nil, packetsOf, complete_of_clean hclean,
        rest_of_clean hclean]
      rfl
  | cons bytes chunks ih =>
      rw [Reader.reads, List.foldl_cons, ← Reader.reads, read_spec _ _ hclean,
        ih (rest_clean 0 _)]
      dsimp only
      rw [routeAll_setRxBuf, ← routeAll_append, ← packetsOf_append, ← rest_append,
        List.flatten_cons, List.append_assoc]

theorem routeAll_recognised (r : Reader) (pkts : List Packet) :
    (r.routeAll pkts).recognised = r.recognised ++ pkts := by
  induction pkts generalizing r with
  | nil => simp [Reader.routeAll]
  | cons pkt pkts ih =>
      rw [Reader.routeAll, List.foldl_cons, ← Reader.routeAll, ih]
      unfold Reader.route
      split <;> simp

/-- A piece that stands for no packet takes nothing from what follows it. -/
theorem packetsOf_corrupt {before piece : List UInt8} (after : List UInt8)
    (hbefore : rest 0 before = []) (hz : 0 ∉ piece)
    (hnone : recognise decodeVec crc16Kermit piece = none) :
    packetsOf decodeVec crc16Kermit (before ++ (piece ++ 0 :: after))
      = packetsOf decodeVec crc16Kermit before ++ packetsOf decodeVec crc16Kermit after := by
  rw [packetsOf_append, hbefore, List.nil_append, packetsOf.eq_1 _ _ (piece ++ 0 :: after),
    complete_cons_of_clean after hz, List.filterMap_cons, hnone]
  rfl

/--
**The reader sees the stream, not the reads.**

However the stream is cut into reads, the packets recognised are those of its
complete nonempty pieces, in order, and what is left in the buffer is its open
piece; responses and debug messages are what those packets make them. A piece
that stands for no packet, wherever it begins, takes nothing from what follows it.
-/
theorem reader_of_stream (chunks : List (List UInt8)) :
    (Reader.init.reads decodeVec crc16Kermit chunks).recognised
        = ((complete 0 chunks.flatten).filter (· ≠ [])).filterMap
            (fun piece => (decodeVec piece).bind (parsePacket crc16Kermit))
      ∧ (Reader.init.reads decodeVec crc16Kermit chunks).rxBuf = rest 0 chunks.flatten
      ∧ Reader.init.reads decodeVec crc16Kermit chunks = readerOf decodeVec crc16Kermit chunks.flatten
      ∧ ∀ before piece after, rest 0 before = [] → 0 ∉ piece →
          recognise decodeVec crc16Kermit piece = none →
          packetsOf decodeVec crc16Kermit (before ++ (piece ++ 0 :: after))
            = packetsOf decodeVec crc16Kermit before ++ packetsOf decodeVec crc16Kermit after := by
  have hr : Reader.init.reads decodeVec crc16Kermit chunks
      = readerOf decodeVec crc16Kermit chunks.flatten :=
    reads_spec decodeVec crc16Kermit (by simp [Reader.init]) chunks
  have hrec : (Reader.init.reads decodeVec crc16Kermit chunks).recognised
      = packetsOf decodeVec crc16Kermit chunks.flatten := by
    rw [hr, readerOf]
    dsimp only
    rw [routeAll_recognised]
    rfl
  refine ⟨?_, by rw [hr, readerOf], hr, ?_⟩
  · rw [hrec, packetsOf, List.filterMap_filter]
    refine congrArg (List.filterMap · _) (funext fun piece => ?_)
    by_cases hp : piece = [] <;> simp [recognise, hp]
  · intro before piece after hbefore hz hnone
    exact packetsOf_corrupt _ _ after hbefore hz hnone

end Loop

/-- An ACK that arrives in three reads, the last of which begins the next frame. -/
theorem reader_of_stream_chunks :
    (Reader.init.reads (Stuffing.unstuff cobsCoding) (Crc16.crc16 0)
        [[0x04, 0xAA, 0xFF], [], [0x01, 0x01, 0x03, 0x62, 0x39, 0x00, 0x02]]).recognised
      = [{ type := 0xFF, id := 1, payload := [] }] :=
  (reader_of_stream (Stuffing.unstuff cobsCoding) (Crc16.crc16 0) _).1.trans (by decide +kernel)

end MiniHF.Host
