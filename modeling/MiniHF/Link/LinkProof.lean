import MiniHF.Host.ClientProof
import MiniHF.Link.StreamProof

/-!
# What reaches the other end

Along any run whose writes are whole, whose text waits for an empty ring and whose
frames find room, neither end makes anything up: the device handles requests that
were written, each at most once and in their order, and the host recognises packets
that were sent. So a call that returns a reply returns the device's answer to its
own request, as long as no id has come round again.

`LinkInv` has a part for each direction, one for what the device has answered and
one for the calls of the host.
-/

namespace MiniHF.Link

open Buffer Delimited Runs Host Device

section Libs

variable (lib : Libs)

/-! ## The condition -/

/-- The device an event leads to. -/
def Board.becomes (b : Board) : LinkEvent → Device
  | .next =>
      match b.receiver.handlerRunning, b.receiver.rxPktMsgq.items with
      | true, msg :: _ => b.device.parseDispatchPacket lib.crc16Ccitt (unpackMsg msg)
      | _, _ => b.device
  | .expire => deviceStep lib.crc16Ccitt b.device .expire
  | .work =>
      if b.receiver.handlerRunning then b.device else deviceStep lib.crc16Ccitt b.device .work
  | .report message => b.device.sendDebugMessage message
  | _ => b.device

/-- The event handles a reset. -/
def Board.resets (b : Board) : LinkEvent → Prop
  | .next => b.receiver.handlerRunning = true ∧ ∃ msg more p,
      b.receiver.rxPktMsgq.items = msg :: more
        ∧ checkPacket lib.crc16Ccitt (unpackMsg msg) = some p ∧ p.type = 0xFD
  | _ => False

/-- A write that fails has written nothing of the frame, or all of it. -/
def HostEnd.writesWhole (h : HostEnd) : LinkEvent → Prop
  | .write n (some k) =>
      ∀ c, h.calls[n]? = some c → k = 0 ∨ (requestBody lib c.request).length < k
  | _ => True

/-- No frame is broken: not by a write, not by a reset, not by text or for want of room. -/
def unbroken (s : Except Fault Ends) (e : LinkEvent) : Prop :=
  ∀ l, s = .ok l → l.host.writesWhole lib e ∧ ¬ l.board.resets lib e
    ∧ Emits lib.crc16Ccitt l.board.transmit.txRingBuf
        (outputSince l.board.device (l.board.becomes lib e))

/-! ## The invariant -/

/-- Downwards: frames of requests, and what the receiver made of those that have arrived. -/
structure DownInv (host : HostEnd) (down : Pipe UInt8) (r : Receiver) : Prop where
  stream : down.stream = requests lib (host.written.map Prod.snd)
  short : ∀ w ∈ host.written, w.2.payload.length ≤ 255
  /-- The ring holds the frame that has not ended yet. -/
  ring : r.rxRingBuf.items = rest 0 down.taken
  accepted : r.accepted.Sublist ((complete 0 down.taken).filterMap MiniHF.framePacket)
  queue : QueueInv r

/-- Upwards: frames of packets that were sent, and what the reader made of those read. -/
structure UpInv (t : Transmit) (up : Pipe UInt8) (reader : Reader) : Prop where
  stream : Framed lib (up.stream ++ t.txRingBuf.items) t.sent
  read : ∃ done, up.taken = done ++ reader.rxBuf ∧ rest 0 done = []
    ∧ reader.recognised = packetsOf lib.decodeVec lib.crc16Kermit done

/-- Every reply that was sent answers a request that was handled. -/
structure AnswerInv (b : Board) : Prop where
  /-- Each is handled once. -/
  once : (b.answered.map Prod.fst).Sublist
    (b.receiver.dispatched.filterMap (checkPacket lib.crc16Ccitt))
  answers : ∀ a ∈ b.answered, Registered a.1 ∧ Answers a.1 a.2
  sent : ∀ q ∈ b.transmit.sent, q.type = debugMsgCmd ∨ ∃ p, (p, q) ∈ b.answered

/-- A reply that was recognised decides the result of the call. -/
def Decided (reader : Reader) (c : Pending) : Prop :=
  ∀ result, c.phase = .returned result → result.answered = true →
    ∃ pkt ∈ reader.recognised, pkt.type ≠ debugMsgCmd ∧ pkt.id = c.request.id
      ∧ result = resultOf pkt

/-- The calls, their ids, and the map. -/
structure HostInv (h : HostEnd) : Prop where
  next : h.nextId = UInt16.ofNat (h.calls.length + 1)
  ids : ∀ (n : Nat) (c : Pending), h.calls[n]? = some c → c.request.id = UInt16.ofNat (n + 1)
  written : ∀ w ∈ h.written, ∃ c, h.calls[w.1]? = some c ∧ c.request = w.2 ∧ c.phase ≠ .allocated
  once : (h.written.map Prod.fst).Nodup
  stored : ∀ id pkt, h.reader.responses id = some pkt →
    pkt.id = id ∧ pkt.type ≠ debugMsgCmd ∧ pkt ∈ h.reader.recognised
  returned : ∀ (n : Nat) (c : Pending), h.calls[n]? = some c → c.awaits = true →
    Decided h.reader c

structure LinkInv (s : Ends) : Prop where
  down : DownInv lib s.host s.down s.board.receiver
  up : UpInv lib s.board.transmit s.up s.host.reader
  answer : AnswerInv lib s.board
  host : HostInv s.host

theorem linkInv_init (device : Device) : LinkInv lib (Ends.init device) where
  down := ⟨rfl, (fun _ hw => nomatch hw), by simp [Ends.init, Receiver.init, rest],
    List.nil_sublist _, queueInv_init⟩
  up := ⟨framed_nil lib, [], rfl, by simp [rest], by simp [packetsOf, complete]; rfl⟩
  answer := ⟨List.nil_sublist _, (fun _ ha => nomatch ha), (fun _ hq => nomatch hq)⟩
  host := by
    constructor
    case next => rfl
    case once => exact List.nodup_nil
    case written => intro w hw; cases hw
    case stored => intro id pkt h; cases h
    all_goals intro n c hc; cases hc

variable {lib}

/-! ## The host -/

theorem pending_set {h : HostEnd} {n : Nat} {c : Pending} (hc : h.calls[n]? = some c)
    (c' : Pending) (j : Nat) :
    (h.setCall n c').calls[j]? = if j = n then some c' else h.calls[j]? := by
  have hlt := (List.getElem?_eq_some_iff.mp hc).1
  by_cases hj : j = n
  · subst hj
    rw [if_pos rfl, HostEnd.setCall, List.getElem?_set_self hlt]
  · rw [if_neg hj, HostEnd.setCall, List.getElem?_set_ne (fun h => hj h.symm)]

/-- A call moves on. -/
theorem HostInv.setCall {h : HostEnd} (hinv : HostInv h) {n : Nat} {c : Pending}
    (hc : h.calls[n]? = some c) (c' : Pending) (hreq : c'.request = c.request)
    (hphase : c'.phase ≠ .allocated) (hdecided : c'.awaits = true → Decided h.reader c') :
    HostInv (h.setCall n c') where
  next := by
    rw [HostEnd.setCall, List.length_set]
    exact hinv.next
  ids j c₁ hj := by
    rw [pending_set hc] at hj
    split at hj
    · rename_i hjn
      rw [← Option.some.inj hj, hreq, hjn]
      exact hinv.ids n c hc
    · exact hinv.ids j c₁ hj
  written w hw := by
    obtain ⟨c₁, hc₁, hreq₁, hph₁⟩ := hinv.written w hw
    rw [pending_set hc]
    split
    · rename_i hwn
      rw [hwn, hc, Option.some.injEq] at hc₁
      exact ⟨c', rfl, by rw [hreq, hc₁, hreq₁], hphase⟩
    · exact ⟨c₁, hc₁, hreq₁, hph₁⟩
  once := hinv.once
  stored := hinv.stored
  returned j c₁ hj haw := by
    rw [pending_set hc] at hj
    split at hj
    · rw [← Option.some.inj hj] at haw ⊢
      exact hdecided haw
    · exact hinv.returned j c₁ hj haw

/-- The map may lose entries, and gain what was recognised; nothing recognised is forgotten. -/
theorem HostInv.setReader {h : HostEnd} (hinv : HostInv h) {reader : Reader} {portOpen : Bool}
    (hmore : ∀ pkt ∈ h.reader.recognised, pkt ∈ reader.recognised)
    (hstored : ∀ id pkt, reader.responses id = some pkt →
      pkt.id = id ∧ pkt.type ≠ debugMsgCmd ∧ pkt ∈ reader.recognised) :
    HostInv { h with reader, portOpen } where
  next := hinv.next
  ids := hinv.ids
  written := hinv.written
  once := hinv.once
  stored := hstored
  returned n c hc haw result hres hans := by
    obtain ⟨pkt, hmem, hpkt⟩ := hinv.returned n c hc haw result hres hans
    exact ⟨pkt, hmore pkt hmem, hpkt⟩

theorem pending_append {cs : List Pending} {c c' : Pending} {n : Nat}
    (h : (cs ++ [c'])[n]? = some c) : cs[n]? = some c ∨ n = cs.length ∧ c = c' := by
  rw [List.getElem?_append] at h
  split at h
  · exact Or.inl h
  · have hlast := (List.getElem?_eq_some_iff.mp h).1
    rw [List.length_singleton] at hlast
    have hzero : n - cs.length = 0 := by omega
    rw [hzero, List.getElem?_cons_zero] at h
    exact Or.inr ⟨by omega, (Option.some.inj h).symm⟩

theorem HostInv.begin {h : HostEnd} (hinv : HostInv h) (cmdId : UInt8) (payload : List UInt8)
    (awaits : Bool) : HostInv (h.begin cmdId payload awaits) := by
  unfold HostEnd.begin
  split
  · exact hinv
  · constructor
    case next =>
      dsimp only
      rw [hinv.next, List.length_append, List.length_singleton, UInt16.ofNat_add (h.calls.length + 1)]
      rfl
    case ids =>
      intro n c hc
      rcases pending_append hc with hc | ⟨hlast, rfl⟩
      · exact hinv.ids n c hc
      · rw [hlast]
        exact hinv.next
    case written =>
      intro w hw
      obtain ⟨c, hc, hreq⟩ := hinv.written w hw
      exact ⟨c, by
        rw [← hc]
        exact List.getElem?_append_left (List.getElem?_eq_some_iff.mp hc).1, hreq⟩
    case once => exact hinv.once
    case stored => exact hinv.stored
    case returned =>
      intro n c hc haw
      rcases pending_append hc with hc | ⟨_, rfl⟩
      · exact hinv.returned n c hc haw
      · intro result hres
        cases hres

theorem HostInv.poll {h : HostEnd} (hinv : HostInv h) (n : Nat) : HostInv (h.poll n) := by
  unfold HostEnd.poll
  split
  · rename_i c hc
    split
    · split
      · rename_i pkt hpkt
        obtain ⟨hid, htype, hmem⟩ := hinv.stored _ _ hpkt
        refine HostInv.setReader (hinv.setCall hc { c with phase := .returned (resultOf pkt) } rfl
          (by simp) ?_) (fun _ h => h) ?_
        · intro _ result hres _
          exact ⟨pkt, hmem, htype, hid, (Phase.returned.inj hres).symm⟩
        · intro id pkt' hstored
          dsimp only at hstored
          split at hstored
          · cases hstored
          · exact hinv.stored id pkt' hstored
      · exact hinv
    · exact hinv
  · exact hinv

theorem HostInv.timeout {h : HostEnd} (hinv : HostInv h) (n : Nat) : HostInv (h.timeout n) := by
  unfold HostEnd.timeout
  split
  · rename_i c hc
    split
    · refine hinv.setCall hc _ rfl (by simp) (fun _ result hres hans => ?_)
      rw [← Phase.returned.inj hres] at hans
      cases hans
    · exact hinv
  · exact hinv

theorem HostInv.clear {h : HostEnd} (hinv : HostInv h) : HostInv h.clear := by
  unfold HostEnd.clear
  split
  · exact hinv
  · exact hinv.setReader (fun _ h => h) (fun _ _ h => by cases h)

/-- A call that has only taken its id has not written. -/
theorem HostInv.unwritten {h : HostEnd} (hinv : HostInv h) {n : Nat} {c : Pending}
    (hc : h.calls[n]? = some c) (hal : c.phase = .allocated) : n ∉ h.written.map Prod.fst := by
  intro hmem
  obtain ⟨w, hw, rfl⟩ := List.mem_map.mp hmem
  obtain ⟨c₁, hc₁, _, hph⟩ := hinv.written w hw
  rw [hc, Option.some.injEq] at hc₁
  exact hph (hc₁ ▸ hal)

/-- A frame reaches the port. -/
theorem HostInv.wrote {h : HostEnd} (hinv : HostInv h) {n : Nat} {c : Pending}
    (hc : h.calls[n]? = some c) (hal : c.phase = .allocated) (c' : Pending)
    (hreq : c'.request = c.request) (hphase : c'.phase ≠ .allocated)
    (hdecided : c'.awaits = true → Decided h.reader c') :
    HostInv { h.setCall n c' with written := h.written ++ [(n, c.request)] } := by
  have hset := hinv.setCall hc c' hreq hphase hdecided
  constructor
  case next => exact hset.next
  case ids => exact hset.ids
  case written =>
    intro w hw
    rcases List.mem_append.mp hw with hw | hw
    · exact hset.written w hw
    · rw [List.mem_singleton.mp hw]
      exact ⟨c', by rw [pending_set hc, if_pos rfl], hreq, hphase⟩
  case once =>
    rw [List.map_append, List.map_singleton, List.nodup_append]
    refine ⟨hinv.once, by simp, ?_⟩
    rintro j hj k hk rfl
    rw [List.mem_singleton.mp hk] at hj
    exact hinv.unwritten hc hal hj
  case stored => exact hset.stored
  case returned => exact hset.returned

/-- **A write** puts the frame on the line whole and notes it, or leaves line and note alone. -/
theorem HostInv.write (hlib : lib.Lawful) {h : HostEnd} (hinv : HostInv h) {n : Nat}
    {cut : Option Nat} (hwhole : h.writesWhole lib (.write n cut)) :
    HostInv (h.write lib n cut).1 ∧ (h.write lib n cut).1.reader = h.reader
      ∧ ((h.write lib n cut).2 = [] ∧ (h.write lib n cut).1.written = h.written
        ∨ ∃ c, h.calls[n]? = some c
          ∧ (h.write lib n cut).2 = requestBody lib c.request ++ [0]
          ∧ (h.write lib n cut).1.written = h.written ++ [(n, c.request)]) := by
  unfold HostEnd.write
  split
  · rename_i c hc
    split
    · rename_i hal
      split
      · rw [framePacket_eq hlib c.short]
        cases cut with
        | none =>
            refine ⟨hinv.wrote hc hal _ rfl ?_ ?_, rfl, Or.inr ⟨c, hc, rfl, rfl⟩⟩
            · dsimp only
              split <;> simp
            · intro haw result hres
              dsimp only at haw hres
              rw [if_pos haw] at hres
              cases hres
        | some k =>
            have hio : ∀ c' : Pending, c'.phase = .returned .io → Decided h.reader c' := by
              intro c' hphase result hres hans
              rw [hphase] at hres
              rw [← Phase.returned.inj hres] at hans
              cases hans
            dsimp only
            rcases hwhole c hc with rfl | hall
            · rw [if_neg (by simp)]
              exact ⟨hinv.setCall hc { c with phase := .returned .io } rfl (by simp)
                (fun _ => hio _ rfl), rfl, Or.inl ⟨List.take_zero, rfl⟩⟩
            · have hlen : (requestBody lib c.request ++ [0]).length ≤ k := by
                rw [List.length_append, List.length_singleton]
                omega
              rw [if_pos hlen, List.take_of_length_le hlen]
              exact ⟨hinv.wrote hc hal { c with phase := .returned .io } rfl (by simp)
                (fun _ => hio _ rfl), rfl, Or.inr ⟨c, hc, rfl, rfl⟩⟩
      · refine ⟨hinv.setCall hc { c with phase := .returned .portClosed } rfl (by simp) ?_, rfl,
          Or.inl ⟨rfl, rfl⟩⟩
        intro _ result hres hans
        rw [← Phase.returned.inj hres] at hans
        cases hans
    · exact ⟨hinv, rfl, Or.inl ⟨rfl, rfl⟩⟩
  · exact ⟨hinv, rfl, Or.inl ⟨rfl, rfl⟩⟩

/-- Taking out a frame: the first complete piece is recognised, if it stands for a packet. -/
theorem takeFrame_spec (r : Reader) :
    0 ∉ r.rxBuf ∧ takeFrame lib r = r
      ∨ ∃ x y, r.rxBuf = x ++ 0 :: y ∧ 0 ∉ x
        ∧ takeFrame lib r
          = { r.routeAll (recognise lib.decodeVec lib.crc16Kermit x).toList with rxBuf := y } := by
  rcases clean_or_split 0 r.rxBuf with hclean | ⟨x, y, hxy, hx⟩
  · refine Or.inl ⟨hclean, ?_⟩
    rw [takeFrame, findIdx_clean hclean]
  · refine Or.inr ⟨x, y, hxy, hx, ?_⟩
    have hidx : r.rxBuf.findIdx? (· == 0x00) = some x.length := by
      rw [hxy]
      exact findIdx_split y hx
    have htake : r.rxBuf.take (x.length + 1) = x ++ [0] := by
      rw [hxy, List.take_append, List.take_of_length_le (Nat.le_succ _)]
      simp
    have hdrop : r.rxBuf.drop (x.length + 1) = y := by
      rw [hxy, List.drop_append]
      simp
    rw [takeFrame, hidx]
    dsimp only
    rw [htake, hdrop, List.length_append, List.length_singleton, Nat.add_sub_cancel,
      List.take_left, frame_eq, routeAll_setRxBuf]

/-- What becomes of the map when a packet is recognised. -/
theorem route_stored {r : Reader} {pkt : Packet}
    (hstored : ∀ id q, r.responses id = some q →
      q.id = id ∧ q.type ≠ debugMsgCmd ∧ q ∈ r.recognised) :
    ∀ id q, (r.route pkt).responses id = some q →
      q.id = id ∧ q.type ≠ debugMsgCmd ∧ q ∈ (r.route pkt).recognised := by
  intro id q hq
  unfold Reader.route at hq ⊢
  split at hq
  · rename_i hdebug
    rw [if_pos hdebug]
    obtain ⟨hid, htype, hmem⟩ := hstored id q hq
    exact ⟨hid, htype, List.mem_append_left _ hmem⟩
  · rename_i hdebug
    rw [if_neg hdebug]
    dsimp only [insertResponse] at hq ⊢
    split at hq
    · rename_i hid
      rw [← Option.some.inj hq]
      exact ⟨hid.symm, hdebug, List.mem_append_right _ List.mem_cons_self⟩
    · obtain ⟨hid, htype, hmem⟩ := hstored id q hq
      exact ⟨hid, htype, List.mem_append_left _ hmem⟩

theorem HostInv.takeFrame {h : HostEnd} (hinv : HostInv h) :
    HostInv { h with reader := takeFrame lib h.reader } := by
  rcases @takeFrame_spec lib h.reader with ⟨_, hsame⟩ | ⟨x, y, _, _, htake⟩
  · rw [hsame]
    exact hinv
  · rw [htake]
    cases recognise lib.decodeVec lib.crc16Kermit x with
    | none => exact hinv.setReader (fun _ h => h) hinv.stored
    | some pkt =>
        refine hinv.setReader ?_ (route_stored hinv.stored)
        intro q hq
        show q ∈ (h.reader.route pkt).recognised
        unfold Reader.route
        split <;> exact List.mem_append_left _ hq

/-! ## Upwards -/

theorem UpInv.fetch {t : Transmit} {up : Pipe UInt8} {h : HostEnd}
    (hup : UpInv lib t up h.reader) (n : Nat) :
    UpInv lib t (h.fetch up n).2 (h.fetch up n).1.reader := by
  unfold HostEnd.fetch
  split
  · obtain ⟨done, htaken, hrest, hrec⟩ := hup.read
    refine ⟨?_, done, ?_, hrest, hrec⟩
    · rw [Pipe.stream_take]
      exact hup.stream
    · rw [Pipe.taken_take, htaken, List.append_assoc]
  · exact hup

theorem UpInv.takeFrame {t : Transmit} {up : Pipe UInt8} {r : Reader} (hup : UpInv lib t up r) :
    UpInv lib t up (takeFrame lib r) := by
  rcases @takeFrame_spec lib r with ⟨_, hsame⟩ | ⟨x, y, hxy, hx, htake⟩
  · rw [hsame]
    exact hup
  · obtain ⟨done, htaken, hrest, hrec⟩ := hup.read
    rw [htake]
    refine ⟨hup.stream, done ++ (x ++ [0]), ?_, ?_, ?_⟩
    · rw [htaken, hxy]
      simp
    · rw [rest_append, hrest, List.nil_append, rest_snoc_self]
    · dsimp only
      rw [routeAll_recognised, hrec, packetsOf_append, hrest, List.nil_append,
        packetsOf.eq_1 _ _ (x ++ [0]), complete_cons_of_clean [] hx,
        complete_of_clean List.not_mem_nil, List.filterMap_cons]
      cases recognise lib.decodeVec lib.crc16Kermit x <;> rfl

/-- Only `rx_buf` and what was recognised matter. -/
theorem UpInv.setResponses {t : Transmit} {up : Pipe UInt8} {r : Reader} (hup : UpInv lib t up r)
    (responses : UInt16 → Option Packet) : UpInv lib t up { r with responses } :=
  ⟨hup.stream, hup.read⟩

theorem poll_reader (h : HostEnd) (n : Nat) :
    ∃ responses, (h.poll n).reader = { h.reader with responses } ∧ (h.poll n).written = h.written := by
  unfold HostEnd.poll
  split
  · split
    · split
      · exact ⟨_, rfl, rfl⟩
      · exact ⟨h.reader.responses, rfl, rfl⟩
    · exact ⟨h.reader.responses, rfl, rfl⟩
  · exact ⟨h.reader.responses, rfl, rfl⟩

theorem clear_reader (h : HostEnd) :
    ∃ responses, h.clear.reader = { h.reader with responses } ∧ h.clear.written = h.written := by
  unfold HostEnd.clear
  split
  · exact ⟨h.reader.responses, rfl, rfl⟩
  · exact ⟨_, rfl, rfl⟩

theorem begin_reader (h : HostEnd) (cmdId : UInt8) (payload : List UInt8) (awaits : Bool) :
    (h.begin cmdId payload awaits).reader = h.reader
      ∧ (h.begin cmdId payload awaits).written = h.written := by
  unfold HostEnd.begin
  split <;> exact ⟨rfl, rfl⟩

theorem timeout_reader (h : HostEnd) (n : Nat) :
    (h.timeout n).reader = h.reader ∧ (h.timeout n).written = h.written := by
  unfold HostEnd.timeout
  split
  · split <;> exact ⟨rfl, rfl⟩
  · exact ⟨rfl, rfl⟩

theorem fetch_written (h : HostEnd) (up : Pipe UInt8) (n : Nat) :
    (h.fetch up n).1.written = h.written := by
  unfold HostEnd.fetch
  split <;> rfl

theorem HostInv.fetch {h : HostEnd} (hinv : HostInv h) (up : Pipe UInt8) (n : Nat) :
    HostInv (h.fetch up n).1 := by
  unfold HostEnd.fetch
  split
  · exact hinv.setReader (fun _ h => h) hinv.stored
  · exact hinv

/-! ## Downwards -/

theorem DownInv.setHost {host host' : HostEnd} {down : Pipe UInt8} {r : Receiver}
    (h : DownInv lib host down r) (hwritten : host'.written = host.written) :
    DownInv lib host' down r :=
  ⟨by rw [hwritten]; exact h.stream, by rw [hwritten]; exact h.short, h.ring, h.accepted, h.queue⟩

theorem DownInv.wrote {host host' : HostEnd} {down : Pipe UInt8} {r : Receiver}
    (h : DownInv lib host down r) {n : Nat} {c : Pending}
    (hwritten : host'.written = host.written ++ [(n, c.request)]) :
    DownInv lib host' (down.send (requestBody lib c.request ++ [0])) r where
  stream := by
    rw [Pipe.stream_send, h.stream, hwritten, List.map_append, requests_append, List.map_singleton,
      requests_singleton]
  short w hw := by
    rw [hwritten] at hw
    rcases List.mem_append.mp hw with hw | hw
    · exact h.short w hw
    · rw [List.mem_singleton.mp hw]
      exact c.short
  ring := h.ring
  accepted := h.accepted
  queue := h.queue

theorem DownInv.shortRequests {host : HostEnd} {down : Pipe UInt8} {r : Receiver}
    (h : DownInv lib host down r) : ∀ p ∈ host.written.map Prod.snd, p.payload.length ≤ 255 := by
  intro p hp
  obtain ⟨w, hw, rfl⟩ := List.mem_map.mp hp
  exact h.short w hw

/-- **The byte that `uart_isr` reads next**, be it the end of a frame or not. -/
theorem DownInv.byte (hlib : lib.Lawful) {host : HostEnd} {down : Pipe UInt8} {r : Receiver}
    (h : DownInv lib host down r) {b : UInt8} {bs : List UInt8} (hinside : down.inside = b :: bs)
    (msg : RxMsg) :
    ∃ r', r.step (.byte b msg) = .ok r' ∧ r'.dispatched = r.dispatched
      ∧ DownInv lib host (down.take 1).2 r' := by
  have htake : (down.take 1).2 = ⟨down.taken ++ [b], bs⟩ := by
    rw [Pipe.take_one hinside]
  have hstream : (down.take 1).2.stream = requests lib (host.written.map Prod.snd) := by
    rw [Pipe.stream_take]
    exact h.stream
  have hpre : down.taken ++ [b] <+: requests lib (host.written.map Prod.snd) := by
    rw [← hstream, htake]
    exact Pipe.taken_prefix ⟨down.taken ++ [b], bs⟩
  have hmax : cobsBufMax = 302 := rfl
  rw [htake] at hstream ⊢
  by_cases hb : b = 0
  · -- the ring holds the frame of a request, and its packet is offered to the queue
    subst hb
    obtain ⟨p, hp, hbody⟩ := requests_frame hlib hpre
    have hshort := h.shortRequests p hp
    have hlen := requestBody_length hlib hshort
    have htaken : r.taken = requestBody lib p := by
      rw [Receiver.taken, h.ring, hbody, List.take_of_length_le (Nat.le_of_lt hlen)]
    obtain ⟨r', hr', hring, _, hdispatched, hoff⟩ :=
      uartIsrByte_zero r msg (by rw [htaken]; exact requestBody_fits hlib hshort)
    have hstep : rxStep (.ok r) (.byte 0 msg) = .ok r' := hr'
    refine ⟨r', hr', hdispatched, hstream, h.short, ?_, ?_, queueInv_step h.queue hstep⟩
    · dsimp only
      rw [hring, rest_snoc_self, h.ring, hbody, List.drop_of_length_le (Nat.le_of_lt hlen)]
    · dsimp only
      rw [htaken, framePacket_requestBody hlib] at hoff
      rw [complete_snoc, List.filterMap_append, hbody, List.filterMap_cons,
        framePacket_requestBody hlib, List.filterMap_nil]
      rw [Offered] at hoff
      split at hoff
      · obtain ⟨_, _, _, _, hacc⟩ := hoff
        rw [hacc]
        exact h.accepted.append (List.Sublist.refl _)
      · rw [hoff.2.2]
        exact h.accepted.trans (List.sublist_append_left _ _)
  · -- the byte goes into the ring, which has room for it
    have hrest := requests_rest hlib h.shortRequests hpre
    rw [rest_snoc _ hb, List.length_append, List.length_singleton] at hrest
    have hstep : rxStep (.ok r) (.byte b msg) = .ok { r with rxRingBuf := r.rxRingBuf.put [b] } :=
      uartIsrByte_ne_zero r msg hb
    refine ⟨_, hstep, rfl, hstream, h.short, ?_, ?_, queueInv_step h.queue hstep⟩
    · dsimp only
      have hsize : ringBufSize = 512 := rfl
      rw [Fifo.put_whole (by rw [Fifo.space, h.ring, List.length_singleton]; omega), h.ring,
        rest_snoc _ hb]
    · have hcomplete : complete 0 (down.taken ++ [b]) = complete 0 down.taken := by
        rw [complete_append, complete_of_clean (s := rest 0 down.taken ++ [b]), List.append_nil]
        rw [← rest_snoc _ hb]
        exact rest_clean 0 _
      dsimp only
      rw [hcomplete]
      exact h.accepted

/-- The work queue leaves the ring and what was accepted alone. -/
theorem DownInv.handler {host : HostEnd} {down : Pipe UInt8} {r r' : Receiver}
    (h : DownInv lib host down r) {e : RxEvent} (he : ∀ b msg, e ≠ .byte b msg)
    (hr : r.step e = .ok r') : DownInv lib host down r' := by
  obtain ⟨r₁, hr₁, hring, hacc, _⟩ := step_handler r he
  rw [hr₁, Except.ok.injEq] at hr
  subst hr
  exact ⟨h.stream, h.short, by rw [hring]; exact h.ring, by rw [hacc]; exact h.accepted,
    queueInv_step h.queue hr₁⟩

/-! ## The device -/

theorem AnswerInv.setReceiver {b : Board} (h : AnswerInv lib b) {receiver : Receiver}
    (hdispatched : b.receiver.dispatched.Sublist receiver.dispatched) :
    AnswerInv lib { b with receiver } :=
  ⟨h.once.trans (hdispatched.filterMap _), h.answers, h.sent⟩

/-- From one state to the next the device sends debug messages and at most one reply, and notes it. -/
def Answered (b b' : Board) : Prop :=
  ∃ new more, b'.transmit.sent = b.transmit.sent ++ new ∧ b'.answered = b.answered ++ more
    ∧ responsesIn new = more.map Prod.snd ∧ more.length ≤ 1

theorem answered_refl (b : Board) : Answered b b :=
  ⟨[], [], (List.append_nil _).symm, (List.append_nil _).symm, rfl, Nat.zero_le _⟩

theorem responsesIn_packetsIn (out : List Output) : responsesIn (packetsIn out) = replies out := by
  induction out with
  | nil => rfl
  | cons o out ih =>
      cases o with
      | printk text => exact ih
      | packet p =>
          rw [packetsIn_cons_packet, responsesIn, List.filter_cons, ← responsesIn, ih]
          by_cases hdebug : p.type = 0xFC <;> simp [replies, debugMsgCmd, hdebug]

/-- **The device moves on**: its output goes up, and the replies among it are answers. -/
theorem become_inv {b : Board} {device : Device} {up : Pipe UInt8} {reader : Reader}
    (htexts : EngineTexts (outputSince b.device device)) (hshort : Host.Short (outputSince b.device device))
    (hemits : Emits lib.crc16Ccitt b.transmit.txRingBuf (outputSince b.device device))
    (hup : UpInv lib b.transmit up reader) (hans : AnswerInv lib b)
    (hreplies : ∀ q ∈ replies (outputSince b.device device), ∃ p, (p, q) ∈ b.answered) :
    ∃ b' bytes, b.become lib device = .ok (b', bytes) ∧ b'.receiver = b.receiver
      ∧ UpInv lib b'.transmit (up.send bytes) reader ∧ AnswerInv lib b'
      ∧ b'.transmit.sent = b.transmit.sent ++ packetsIn (outputSince b.device device)
      ∧ b'.answered = b.answered := by
  obtain ⟨t', bytes, hemit, hframed, hsent⟩ := emit_framed hshort htexts hemits hup.stream
  refine ⟨{ b with device, transmit := t' }, bytes, by rw [Board.become, hemit]; rfl, rfl,
    ⟨?_, hup.read⟩, ⟨hans.once, hans.answers, ?_⟩, hsent, rfl⟩
  · rw [Pipe.stream_send]
    exact hframed
  · intro q hq
    dsimp only at hq
    rw [hsent] at hq
    rcases List.mem_append.mp hq with hq | hq
    · exact hans.sent q hq
    · exact (reply_of_packet hq).imp_right (hreplies q)

/-- A step of the device that sends no reply. -/
theorem become_silent {b : Board} {device : Device} {up : Pipe UInt8} {reader : Reader}
    (hout : EngineTexts (outputSince b.device device) ∧ Host.Short (outputSince b.device device)
      ∧ replies (outputSince b.device device) = [])
    (hemits : Emits lib.crc16Ccitt b.transmit.txRingBuf (outputSince b.device device))
    (hup : UpInv lib b.transmit up reader) (hans : AnswerInv lib b) :
    ∃ b' bytes, b.become lib device = .ok (b', bytes) ∧ b'.receiver = b.receiver
      ∧ UpInv lib b'.transmit (up.send bytes) reader ∧ AnswerInv lib b' ∧ Answered b b' := by
  obtain ⟨b', bytes, hb', hreceiver, hup', hans', hsent, hanswered⟩ :=
    become_inv hout.1 hout.2.1 hemits hup hans (by rw [hout.2.2]; exact fun _ hq => nomatch hq)
  refine ⟨b', bytes, hb', hreceiver, hup', hans', _, [], hsent, ?_, ?_, Nat.zero_le _⟩
  · rw [hanswered, List.append_nil]
  · rw [responsesIn_packetsIn, hout.2.2]
    rfl

theorem report_silent (d : Device) (message : String) :
    EngineTexts (outputSince d (d.sendDebugMessage message))
      ∧ Host.Short (outputSince d (d.sendDebugMessage message))
      ∧ replies (outputSince d (d.sendDebugMessage message)) = [] := by
  rw [report_since]
  refine ⟨?_, ?_, rfl⟩
  · intro text ht
    cases List.mem_singleton.mp ht
  · intro p hp
    rw [Output.packet.inj (List.mem_singleton.mp hp)]
    exact List.length_take_le _ _

/-- **A message that is handled**: a request is answered once, anything else is passed over. -/
theorem handle_inv {b : Board} {data : List UInt8} {before : List (List UInt8)} {up : Pipe UInt8}
    {reader : Reader} (hdispatched : b.receiver.dispatched = before ++ [data])
    (hreset : ∀ p, checkPacket lib.crc16Ccitt data = some p → p.type ≠ 0xFD)
    (hemits : Emits lib.crc16Ccitt b.transmit.txRingBuf
      (outputSince b.device (b.device.parseDispatchPacket lib.crc16Ccitt data)))
    (hup : UpInv lib b.transmit up reader)
    (honce : (b.answered.map Prod.fst).Sublist (before.filterMap (checkPacket lib.crc16Ccitt)))
    (hans : AnswerInv lib b) :
    ∃ b' bytes, b.handle lib data = .ok (b', bytes) ∧ b'.receiver = b.receiver
      ∧ UpInv lib b'.transmit (up.send bytes) reader ∧ AnswerInv lib b' ∧ Answered b b' := by
  rw [Board.handle]
  cases hp : checkPacket lib.crc16Ccitt data with
  | none =>
      have hsame : b.device.parseDispatchPacket lib.crc16Ccitt data = b.device := by
        rw [parseDispatchPacket, hp]
      rw [hsame] at hemits ⊢
      refine become_silent ?_ hemits hup hans
      rw [outputSince_self]
      exact ⟨fun _ h => absurd h List.not_mem_nil, fun _ h => absurd h List.not_mem_nil, rfl⟩
  | some p =>
      dsimp only
      rw [if_neg (hreset p hp)]
      obtain ⟨htexts, hshort, hreplies⟩ := handle_since lib.crc16Ccitt hp (hreset p hp) b.device
      generalize hd : b.device.parseDispatchPacket lib.crc16Ccitt data = device at *
      have hsame : ∀ {q}, q ∈ replies (outputSince b.device device) →
          (p, q) ∈ b.answered ++ (replies (outputSince b.device device)).map (p, ·) :=
        fun hq => List.mem_append_right _ (List.mem_map_of_mem hq)
      have hans' : AnswerInv lib { b with
          answered := b.answered ++ (replies (outputSince b.device device)).map (p, ·) } := by
        refine ⟨?_, ?_, ?_⟩
        · -- the new message is the last one dispatched
          dsimp only
          rw [hdispatched, List.filterMap_append, List.map_append]
          refine honce.append ?_
          rw [List.filterMap_cons, hp, List.filterMap_nil]
          rcases hreplies with hnone | ⟨reply, _, _, hone⟩
          · rw [hnone]
            exact List.nil_sublist _
          · rw [hone]
            exact List.Sublist.refl _
        · intro a ha
          rcases List.mem_append.mp ha with ha | ha
          · exact hans.answers a ha
          · obtain ⟨q, hq, hqa⟩ := List.mem_map.mp ha
            rw [← hqa]
            rcases hreplies with hnone | ⟨reply, hanswers, hreg, hone⟩
            · rw [hnone] at hq
              cases hq
            · rw [hone] at hq
              rw [List.mem_singleton.mp hq]
              exact ⟨hreg, hanswers⟩
        · intro q hq
          rcases hans.sent q hq with hdebug | ⟨p', hp'⟩
          · exact Or.inl hdebug
          · exact Or.inr ⟨p', List.mem_append_left _ hp'⟩
      obtain ⟨b', bytes, hb', hreceiver, hup', hans'', hsent, hanswered⟩ :=
        become_inv (b := { b with
          answered := b.answered ++ (replies (outputSince b.device device)).map (p, ·) })
          htexts hshort hemits hup hans' fun q hq => ⟨p, hsame hq⟩
      refine ⟨b', bytes, hb', hreceiver, hup', hans'', _, _, hsent, hanswered, ?_, ?_⟩
      · rw [responsesIn_packetsIn, List.map_map]
        exact (List.map_id _).symm
      · rw [List.length_map]
        rcases hreplies with hnone | ⟨reply, _, _, hone⟩
        · rw [hnone]
          exact Nat.zero_le _
        · rw [hone]
          exact Nat.le_refl _

/-- **A round of the handler.** -/
theorem next_inv {b : Board} {host : HostEnd} {down up : Pipe UInt8} {reader : Reader}
    (hdown : DownInv lib host down b.receiver) (hreset : ¬ b.resets lib .next)
    (hemits : Emits lib.crc16Ccitt b.transmit.txRingBuf
      (outputSince b.device (b.becomes lib .next)))
    (hup : UpInv lib b.transmit up reader) (hans : AnswerInv lib b) :
    ∃ b' bytes, b.next lib = .ok (b', bytes) ∧ DownInv lib host down b'.receiver
      ∧ UpInv lib b'.transmit (up.send bytes) reader ∧ AnswerInv lib b' ∧ Answered b b' := by
  have hidle : ∀ r', b.receiver.step .next = .ok r' → r'.dispatched = b.receiver.dispatched →
      DownInv lib host down r' ∧ UpInv lib b.transmit (up.send []) reader
        ∧ AnswerInv lib { b with receiver := r' } ∧ Answered b { b with receiver := r' } := by
    intro r' hr' hsame
    rw [Pipe.send_nil]
    exact ⟨hdown.handler (by simp) hr', hup,
      hans.setReceiver (by simp only [hsame, List.Sublist.refl]), answered_refl b⟩
  by_cases hrunning : b.receiver.handlerRunning = true
  · have hstep := step_next hrunning
    rw [Board.becomes, hrunning] at hemits
    cases hitems : b.receiver.rxPktMsgq.items with
    | nil =>
        rw [hitems] at hstep
        dsimp only at hstep
        refine ⟨{ b with receiver := { b.receiver with handlerRunning := false } }, [], ?_,
          hidle _ hstep rfl⟩
        rw [Board.next, hstep, ok_bind, hrunning, hitems]
        rfl
    | cons msg more =>
        rw [hitems] at hstep hemits
        dsimp only at hstep hemits
        have hdown' := hdown.handler (by simp) hstep
        let receiver : Receiver := { b.receiver with
          rxPktMsgq := (b.receiver.rxPktMsgq.get 1).2
          dispatched := b.receiver.dispatched ++ [unpackMsg msg] }
        have hans₁ : AnswerInv lib { b with receiver } :=
          hans.setReceiver (List.sublist_append_left _ _)
        obtain ⟨b', bytes, hhandle, hreceiver, hup', hans', hanswered⟩ :=
          @handle_inv lib { b with receiver } (unpackMsg msg) b.receiver.dispatched up reader rfl
            (fun p hp htype => hreset ⟨hrunning, msg, more, p, hitems, hp, htype⟩) hemits hup hans.once
            hans₁
        refine ⟨b', bytes, ?_, by rw [hreceiver]; exact hdown', hup', hans', hanswered⟩
        rw [Board.next, show b.receiver.step .next = .ok receiver from hstep, ok_bind, hrunning,
          hitems]
        exact hhandle
  · have hstep : b.receiver.step .next = .ok b.receiver := by
      rw [Receiver.step, if_neg hrunning]
    have hfalse : b.receiver.handlerRunning = false := Bool.eq_false_iff.mpr hrunning
    refine ⟨b, [], ?_, hidle _ hstep rfl⟩
    rw [Board.next, hstep, ok_bind, hfalse]
    rfl

/-! ## One step -/

/-- The device's side of a step. -/
theorem LinkInv.onBoard {s : Ends} (h : LinkInv lib s) {r : Except Fault (Board × List UInt8)}
    (hr : ∃ b' bytes, r = .ok (b', bytes) ∧ DownInv lib s.host s.down b'.receiver
      ∧ UpInv lib b'.transmit (s.up.send bytes) s.host.reader ∧ AnswerInv lib b'
      ∧ Answered s.board b') :
    ∃ s', s.onBoard r = .ok s' ∧ LinkInv lib s' ∧ Answered s.board s'.board := by
  obtain ⟨b', bytes, rfl, hdown, hup, hans, hanswered⟩ := hr
  exact ⟨_, rfl, ⟨hdown, hup, hans, h.host⟩, hanswered⟩

theorem LinkInv.become {s : Ends} (h : LinkInv lib s) {device : Device}
    (hout : EngineTexts (outputSince s.board.device device)
      ∧ Host.Short (outputSince s.board.device device)
      ∧ replies (outputSince s.board.device device) = [])
    (hemits : Emits lib.crc16Ccitt s.board.transmit.txRingBuf (outputSince s.board.device device)) :
    ∃ s', s.onBoard (s.board.become lib device) = .ok s' ∧ LinkInv lib s'
      ∧ Answered s.board s'.board := by
  obtain ⟨b', bytes, hb', hreceiver, hup, hans⟩ := become_silent hout hemits h.up h.answer
  exact h.onBoard ⟨b', bytes, hb', by rw [hreceiver]; exact h.down, hup, hans⟩

/-- **Every unbroken step keeps the invariant**, and none faults. -/
theorem linkInv_step (hlib : lib.Lawful) {s : Ends} (h : LinkInv lib s) {e : LinkEvent}
    (hgood : unbroken lib (.ok s) e) :
    ∃ s', linkStep lib (.ok s) e = .ok s' ∧ LinkInv lib s' ∧ Answered s.board s'.board := by
  obtain ⟨hwhole, hreset, hemits⟩ := hgood s rfl
  have hsame : ∀ {host down up}, DownInv lib host down s.board.receiver →
      UpInv lib s.board.transmit up host.reader → HostInv host →
      LinkInv lib { s with host, down, up } ∧ Answered s.board s.board :=
    fun hdown hup hhost => ⟨⟨hdown, hup, h.answer, hhost⟩, answered_refl _⟩
  rw [linkStep, ok_bind]
  cases e with
  | begin cmdId payload awaits =>
      obtain ⟨hreader, hwritten⟩ := begin_reader s.host cmdId payload awaits
      exact ⟨_, rfl, hsame (h.down.setHost hwritten) (by rw [hreader]; exact h.up)
        (h.host.begin cmdId payload awaits)⟩
  | write n cut =>
      obtain ⟨hhost, hreader, hwrote⟩ := h.host.write hlib hwhole
      refine ⟨{ s with
        host := (s.host.write lib n cut).1, down := s.down.send (s.host.write lib n cut).2 }, rfl,
        hsame ?_ (by rw [hreader]; exact h.up) hhost⟩
      rcases hwrote with ⟨hbytes, hwritten⟩ | ⟨c, _, hbytes, hwritten⟩
      · rw [hbytes, Pipe.send_nil]
        exact h.down.setHost hwritten
      · rw [hbytes]
        exact h.down.wrote hwritten
  | poll n =>
      obtain ⟨responses, hreader, hwritten⟩ := poll_reader s.host n
      exact ⟨_, rfl, hsame (h.down.setHost hwritten)
        (by rw [hreader]; exact h.up.setResponses responses) (h.host.poll n)⟩
  | timeout n =>
      obtain ⟨hreader, hwritten⟩ := timeout_reader s.host n
      exact ⟨_, rfl, hsame (h.down.setHost hwritten) (by rw [hreader]; exact h.up)
        (h.host.timeout n)⟩
  | fetch n =>
      exact ⟨_, rfl, hsame (h.down.setHost (fetch_written s.host s.up n)) (h.up.fetch n)
        (h.host.fetch s.up n)⟩
  | frame => exact ⟨_, rfl, hsame (h.down.setHost rfl) h.up.takeFrame h.host.takeFrame⟩
  | close =>
      exact ⟨_, rfl, hsame (h.down.setHost rfl) h.up (h.host.setReader (fun _ h => h) h.host.stored)⟩
  | clear =>
      obtain ⟨responses, hreader, hwritten⟩ := clear_reader s.host
      exact ⟨_, rfl, hsame (h.down.setHost hwritten)
        (by rw [hreader]; exact h.up.setResponses responses) h.host.clear⟩
  | byte msg =>
      rw [Ends.step]
      cases hinside : s.down.inside with
      | nil =>
          refine ⟨s, ?_, h, answered_refl _⟩
          rw [Pipe.take, hinside]
          rfl
      | cons b bs =>
          obtain ⟨r', hr', hdispatched, hdown⟩ := h.down.byte hlib hinside msg
          refine ⟨{ s with down := (s.down.take 1).2, board := { s.board with receiver := r' } }, ?_,
            ⟨hdown, h.up, h.answer.setReceiver (by simp only [hdispatched, List.Sublist.refl]),
              h.host⟩, answered_refl _⟩
          rw [Pipe.take_one hinside]
          dsimp only
          rw [hr']
          rfl
  | start =>
      obtain ⟨r', hr', hkeep⟩ := step_handler s.board.receiver (e := .start) (by simp)
      have hdispatched : r'.dispatched = s.board.receiver.dispatched := by
        rw [Receiver.step] at hr'
        split at hr' <;> rw [← Except.ok.inj hr']
      exact ⟨{ s with board := { s.board with receiver := r' } }, by rw [Ends.step, hr']; rfl,
        ⟨h.down.handler (by simp) hr', h.up,
          h.answer.setReceiver (by simp only [hdispatched, List.Sublist.refl]), h.host⟩,
        answered_refl _⟩
  | next => exact h.onBoard (next_inv h.down hreset hemits h.up h.answer)
  | pass contiguous accepted =>
      obtain ⟨hbytes, hsent⟩ := pass_bytes s.board contiguous accepted
      refine h.onBoard ⟨(s.board.pass contiguous accepted).1, (s.board.pass contiguous accepted).2,
        rfl, h.down, ⟨?_, h.up.read⟩, ⟨h.answer.once, h.answer.answers, ?_⟩, [], [], ?_, ?_, rfl,
        Nat.zero_le _⟩
      · rw [Pipe.stream_send, List.append_assoc, hbytes, hsent]
        exact h.up.stream
      · rw [hsent]
        exact h.answer.sent
      · rw [hsent, List.append_nil]
      · exact (List.append_nil _).symm
  | expire => exact h.become (deviceStep_prints _ _ (by simp)).since hemits
  | work =>
      rw [Ends.step]
      rw [Board.becomes] at hemits
      split
      · exact ⟨s, rfl, h, answered_refl _⟩
      · rename_i hidle
        rw [if_neg hidle] at hemits
        exact h.become (deviceStep_prints _ _ (by simp)).since hemits
  | report message => exact h.become (report_silent _ message) hemits

/-- **Along an unbroken run the invariant holds**, and there is no fault. -/
theorem linkInv_run (hlib : lib.Lawful) {s : Ends} (h : LinkInv lib s) {es : List LinkEvent}
    (hgood : Along (linkStep lib) (unbroken lib) (.ok s) es) :
    ∃ s', run (linkStep lib) (.ok s) es = .ok s' ∧ LinkInv lib s' := by
  induction es generalizing s with
  | nil => exact ⟨s, rfl, h⟩
  | cons e es ih =>
      obtain ⟨s', hs', h', _⟩ := linkInv_step hlib h hgood.1
      have hmore := hgood.2
      rw [hs'] at hmore
      rw [run_cons, hs']
      exact ih h' hmore

end Libs

end MiniHF.Link
