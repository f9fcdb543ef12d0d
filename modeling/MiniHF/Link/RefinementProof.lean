import MiniHF.Link.EndToEndProof

/-!
# The link refines the client

The client of `Host.Client` knows neither bytes nor a device: whatever was written
may be answered at any time, or not at all. Along runs in which no frame is broken
the link behaves like that: every step of it is no step or one step of the client.
A reply enters the client's line when the device sends it, and is stored when the
reader recognises it; what the link loses stays on the client's line for ever.
-/

namespace MiniHF.Link

open Buffer Delimited Runs Host Device

section Libs

variable {lib : Libs}

/-- What a caller sees of a call. -/
def seen (c : Call) : Packet × Bool × Phase := (c.request, c.awaits, c.phase)

/-- What a caller sees of a call on the link. -/
def Pending.seen (c : Pending) : Packet × Bool × Phase := (c.request, c.awaits, c.phase)

/-- The client `c` is the host of `s`, with the replies on their way as packets. -/
structure Refines (lib : Libs) (s : Ends) (c : Client) : Prop where
  next : c.nextId = s.host.nextId
  port : c.port.isSome = s.host.portOpen
  calls : c.calls.map seen = s.host.calls.map Pending.seen
  /-- A frame that reached the port may be answered. -/
  sent : ∀ w ∈ s.host.written, ∃ call, c.calls[w.1]? = some call ∧ call.sent = true
  map : ∀ id, s.host.reader.responses id = (c.responses id).map Reply.pkt
  /-- The client has on its line what the reader has still to recognise. -/
  buffered : ∀ q, q.type ≠ debugMsgCmd →
    (packetsOf lib.decodeVec lib.crc16Kermit s.host.reader.rxBuf).count q
      ≤ (c.inFlight.map Reply.pkt).count q
  /-- And, while the port is open, whatever was sent and not recognised. -/
  line : s.host.portOpen = true → ∀ q, q.type ≠ debugMsgCmd →
    s.board.transmit.sent.count q
      ≤ s.host.reader.recognised.count q + (c.inFlight.map Reply.pkt).count q

theorem refines_init (device : Device) : Refines lib (Ends.init device) Client.init where
  next := rfl
  port := rfl
  calls := rfl
  sent := fun _ hw => nomatch hw
  map _ := rfl
  buffered _ _ := Nat.le_refl _
  line _ _ _ := Nat.zero_le _

/-- Calls that look alike are found in the same places. -/
theorem Refines.call {s : Ends} {c : Client} (h : Refines lib s c) {n : Nat} {p : Pending}
    (hp : s.host.calls[n]? = some p) :
    ∃ call, c.calls[n]? = some call ∧ call.request = p.request ∧ call.awaits = p.awaits
      ∧ call.phase = p.phase := by
  have hview : (c.calls.map seen)[n]? = some p.seen := by
    rw [h.calls, List.getElem?_map, hp]
    rfl
  rw [List.getElem?_map, Option.map_eq_some_iff] at hview
  obtain ⟨call, hcall, heq⟩ := hview
  rw [seen, Pending.seen, Prod.mk.injEq, Prod.mk.injEq] at heq
  exact ⟨call, hcall, heq⟩

/-- A call moves on in both. -/
theorem Refines.setCall {s : Ends} {c : Client} (h : Refines lib s c) {n : Nat} {call : Call}
    (call' : Call) (p' : Pending) (hcall : c.calls[n]? = some call) (hseen : seen call' = p'.seen)
    (hsent : call.sent = true → call'.sent = true) :
    (c.setCall n call').calls.map seen = (s.host.setCall n p').calls.map Pending.seen
      ∧ ∀ w ∈ s.host.written, ∃ call₁, (c.setCall n call').calls[w.1]? = some call₁
          ∧ call₁.sent = true := by
  constructor
  · rw [Client.setCall, HostEnd.setCall, List.map_set, List.map_set, h.calls, hseen]
  · intro w hw
    obtain ⟨call₁, hcall₁, hs⟩ := h.sent w hw
    rw [calls_set hcall]
    split
    · rename_i hwn
      rw [hwn, hcall, Option.some.injEq] at hcall₁
      exact ⟨call', rfl, hsent (hcall₁ ▸ hs)⟩
    · exact ⟨call₁, hcall₁, hs⟩

/-- The device's side moves without sending a reply. -/
theorem Refines.onBoard {s : Ends} {c : Client} (h : Refines lib s c) {board : Board}
    (down up : Pipe UInt8)
    (hsent : ∀ q, q.type ≠ debugMsgCmd → board.transmit.sent.count q = s.board.transmit.sent.count q) :
    Refines lib { s with board, down, up } c where
  next := h.next
  port := h.port
  calls := h.calls
  sent := h.sent
  map := h.map
  buffered := h.buffered
  line hopen q hq := by
    rw [hsent q hq]
    exact h.line hopen q hq

/-! ## The host -/

theorem refines_begin {s : Ends} {c : Client} (h : Refines lib s c) (cmdId : UInt8)
    (payload : List UInt8) (awaits : Bool) :
    Refines lib { s with host := s.host.begin cmdId payload awaits }
      (clientStep c (.begin cmdId payload awaits)) := by
  rw [clientStep, Client.begin, HostEnd.begin]
  split
  · exact h
  · constructor
    case next => exact congrArg (· + 1) h.next
    case port => exact h.port
    case calls =>
      show (c.calls ++ _).map seen = (s.host.calls ++ _).map Pending.seen
      rw [List.map_append, List.map_append, h.calls, h.next]
      rfl
    case sent =>
      intro w hw
      obtain ⟨call, hcall, hs⟩ := h.sent w hw
      exact ⟨call, (List.getElem?_append_left (List.getElem?_eq_some_iff.mp hcall).1).trans hcall, hs⟩
    case map => exact h.map
    case buffered => exact h.buffered
    case line => exact h.line

theorem refines_write (hlib : lib.Lawful) {s : Ends} {c : Client} (h : Refines lib s c) {n : Nat}
    {cut : Option Nat} :
    ∃ ds, Refines lib { s with
        host := (s.host.write lib n cut).1, down := s.down.send (s.host.write lib n cut).2 }
      (run clientStep c ds) := by
  have hsame : Refines lib { s with down := s.down.send [] } c := h.onBoard _ _ fun _ _ => rfl
  unfold HostEnd.write
  split
  · rename_i p hp
    obtain ⟨call, hcall, hreq, haw, hph⟩ := h.call hp
    split
    · rename_i hal
      have hal' : call.phase = .allocated := hph.trans hal
      split
      · rename_i hopen
        rw [framePacket_eq hlib p.short]
        obtain ⟨written, hport⟩ := Option.isSome_iff_exists.mp (h.port.trans hopen)
        cases cut with
        | none =>
            refine ⟨[.write n true], ?_⟩
            rw [run_cons, run_nil, clientStep, hcall]
            dsimp only
            rw [if_pos hal', Client.write, hport]
            dsimp only
            rw [if_pos rfl]
            obtain ⟨hcalls, hsent⟩ := h.setCall
              { call with phase := if call.awaits then .waiting else .returned (.ok []), sent := true }
              { p with phase := if p.awaits then .waiting else .returned (.ok []) } hcall
              (by rw [seen, Pending.seen, hreq, haw]) (fun _ => rfl)
            refine ⟨h.next, hopen.symm, hcalls, ?_, h.map, h.buffered, h.line⟩
            intro w hw
            rcases List.mem_append.mp hw with hw | hw
            · exact hsent w hw
            · rw [List.mem_singleton.mp hw]
              exact ⟨_, calls_set_self hcall _, rfl⟩
        | some k =>
            refine ⟨[.write n false], ?_⟩
            rw [run_cons, run_nil, clientStep, hcall]
            dsimp only
            rw [if_pos hal', Client.write, hport]
            dsimp only
            rw [if_neg (show ¬ false = true by simp)]
            obtain ⟨hcalls, hsent⟩ := h.setCall
              { call with phase := .returned .io, sent := true }
              { p with phase := .returned .io } hcall
              (by rw [seen, Pending.seen, hreq, haw]) (fun _ => rfl)
            refine ⟨h.next, h.port, hcalls, ?_, h.map, h.buffered, h.line⟩
            intro w hw
            dsimp only at hw
            split at hw
            · rcases List.mem_append.mp hw with hw | hw
              · exact hsent w hw
              · rw [List.mem_singleton.mp hw]
                exact ⟨_, calls_set_self hcall _, rfl⟩
            · exact hsent w hw
      · rename_i hclosed
        have hport : c.port = none :=
          Option.not_isSome_iff_eq_none.mp (by rw [h.port]; exact hclosed)
        refine ⟨[.write n true], ?_⟩
        rw [run_cons, run_nil, clientStep, hcall]
        dsimp only
        rw [if_pos hal', Client.write, hport, Pipe.send_nil]
        obtain ⟨hcalls, hsent⟩ := h.setCall
            { call with phase := .returned .portClosed }
            { p with phase := .returned .portClosed } hcall
          (by rw [seen, Pending.seen, hreq, haw]) id
        exact ⟨h.next, h.port, hcalls, hsent, h.map, h.buffered, h.line⟩
    · exact ⟨[], hsame⟩
  · exact ⟨[], hsame⟩

theorem refines_poll {s : Ends} {c : Client} (h : Refines lib s c) (n : Nat) :
    ∃ ds, Refines lib { s with host := s.host.poll n } (run clientStep c ds) := by
  unfold HostEnd.poll
  split
  · rename_i p hp
    obtain ⟨call, hcall, hreq, haw, hph⟩ := h.call hp
    split
    · rename_i hw
      split
      · rename_i pkt hpkt
        have hmap := h.map p.request.id
        rw [hpkt] at hmap
        obtain ⟨r, hr, hrpkt⟩ := Option.map_eq_some_iff.mp hmap.symm
        rw [← hreq] at hr
        refine ⟨[.poll n], ?_⟩
        rw [run_cons, run_nil, clientStep, hcall]
        dsimp only
        rw [if_pos (hph.trans hw), Client.poll, hr]
        obtain ⟨hcalls, hsent⟩ := h.setCall
            { call with phase := .returned (resultOf r.pkt), consumed := some r }
            { p with phase := .returned (resultOf pkt) } hcall
          (by rw [seen, Pending.seen, hreq, haw, hrpkt]) id
        refine ⟨h.next, h.port, hcalls, hsent, ?_, h.buffered, h.line⟩
        intro id
        dsimp only
        rw [hreq]
        by_cases hid : id = p.request.id
        · rw [if_pos hid, if_pos hid]
          rfl
        · rw [if_neg hid, if_neg hid]
          exact h.map id
      · exact ⟨[], h⟩
    · exact ⟨[], h⟩
  · exact ⟨[], h⟩

theorem refines_timeout {s : Ends} {c : Client} (h : Refines lib s c) (n : Nat) :
    ∃ ds, Refines lib { s with host := s.host.timeout n } (run clientStep c ds) := by
  unfold HostEnd.timeout
  split
  · rename_i p hp
    obtain ⟨call, hcall, hreq, haw, hph⟩ := h.call hp
    split
    · rename_i hw
      refine ⟨[.timeout n], ?_⟩
      rw [run_cons, run_nil, clientStep, hcall]
      dsimp only
      rw [if_pos (hph.trans hw)]
      obtain ⟨hcalls, hsent⟩ := h.setCall
          { call with phase := .returned .timeout }
          { p with phase := .returned .timeout } hcall
        (by rw [seen, Pending.seen, hreq, haw]) id
      exact ⟨h.next, h.port, hcalls, hsent, h.map, h.buffered, h.line⟩
    · exact ⟨[], h⟩
  · exact ⟨[], h⟩

/-- What the reader has read, all of it, was sent. -/
theorem UpInv.readPackets (hlib : lib.Lawful) {t : Transmit} {up : Pipe UInt8} {r : Reader}
    (h : UpInv lib t up r) :
    (r.recognised ++ packetsOf lib.decodeVec lib.crc16Kermit r.rxBuf).Sublist t.sent := by
  obtain ⟨done, htaken, hrest, hrec⟩ := h.read
  have hall : packetsOf lib.decodeVec lib.crc16Kermit up.taken
      = r.recognised ++ packetsOf lib.decodeVec lib.crc16Kermit r.rxBuf := by
    rw [htaken, packetsOf_append, hrest, List.nil_append, hrec]
  rw [← hall]
  exact h.stream.recognised hlib (up.taken_prefix.trans (List.prefix_append _ _))

theorem refines_fetch (hlib : lib.Lawful) {s : Ends} {c : Client} (hinv : LinkInv lib s)
    (h : Refines lib s c) (n : Nat) :
    Refines lib { s with host := (s.host.fetch s.up n).1, up := (s.host.fetch s.up n).2 } c := by
  have hread := ((hinv.up.fetch n).readPackets hlib)
  unfold HostEnd.fetch at hread ⊢
  split
  · rename_i hguard
    rw [if_pos hguard] at hread
    have hopen : s.host.portOpen = true := (Bool.and_eq_true _ _ ▸ hguard).1
    refine ⟨h.next, h.port, h.calls, h.sent, h.map, fun q hq => ?_, h.line⟩
    have hcount := hread.count_le q
    have hline := h.line hopen q hq
    rw [List.count_append] at hcount
    dsimp only at hcount ⊢
    omega
  · exact h

/-- What is on the client's line can be stored. -/
theorem inFlight_of_count {c : Client} {q : Packet} (h : 0 < (c.inFlight.map Reply.pkt).count q) :
    ∃ (k : Nat) (r : Reply), c.inFlight[k]? = some r ∧ r.pkt = q := by
  obtain ⟨r, hr, hq⟩ := List.mem_map.mp (List.count_pos_iff.mp h)
  obtain ⟨k, hk⟩ := List.mem_iff_getElem?.mp hr
  exact ⟨k, r, hk, hq⟩

theorem count_eraseIdx {rs : List Reply} {k : Nat} {r : Reply} (hr : rs[k]? = some r) (q : Packet) :
    (rs.map Reply.pkt).count q
      = ((rs.eraseIdx k).map Reply.pkt).count q + if r.pkt = q then 1 else 0 := by
  induction rs generalizing k with
  | nil => simp at hr
  | cons r' rs ih =>
      cases k with
      | zero =>
          rw [List.getElem?_cons_zero, Option.some.injEq] at hr
          rw [hr, List.eraseIdx_cons_zero, List.map_cons, List.count_cons]
          by_cases hq : r.pkt = q <;> simp [hq]
      | succ k =>
          rw [List.getElem?_cons_succ] at hr
          rw [List.eraseIdx_cons_succ, List.map_cons, List.map_cons, List.count_cons,
            List.count_cons, ih hr]
          omega

theorem refines_frame {s : Ends} {c : Client} (h : Refines lib s c) :
    ∃ ds, Refines lib { s with host := { s.host with reader := takeFrame lib s.host.reader } }
      (run clientStep c ds) := by
  rcases @takeFrame_spec lib s.host.reader with ⟨_, hsame⟩ | ⟨x, y, hxy, hx, htake⟩
  · rw [hsame]
    exact ⟨[], h⟩
  · have hpackets : packetsOf lib.decodeVec lib.crc16Kermit s.host.reader.rxBuf
        = (recognise lib.decodeVec lib.crc16Kermit x).toList
          ++ packetsOf lib.decodeVec lib.crc16Kermit y := by
      rw [hxy, packetsOf, packetsOf, complete_cons_of_clean y hx, List.filterMap_cons]
      cases recognise lib.decodeVec lib.crc16Kermit x <;> rfl
    have hbuffered := h.buffered
    rw [hpackets] at hbuffered
    rw [htake]
    cases hrec : recognise lib.decodeVec lib.crc16Kermit x with
    | none =>
        rw [hrec] at hbuffered
        exact ⟨[], h.next, h.port, h.calls, h.sent, h.map, hbuffered, h.line⟩
    | some pkt =>
        rw [hrec] at hbuffered
        have hroute : (s.host.reader.routeAll (some pkt).toList) = s.host.reader.route pkt := rfl
        rw [hroute]
        have hrecognised : (s.host.reader.route pkt).recognised = s.host.reader.recognised ++ [pkt] := by
          unfold Reader.route
          split <;> rfl
        by_cases hdebug : pkt.type = debugMsgCmd
        · -- a debug message is nothing to the client
          refine ⟨[], h.next, h.port, h.calls, h.sent, ?_, fun q hq => ?_, fun hopen q hq => ?_⟩
          · intro id
            dsimp only
            rw [Reader.route, if_pos hdebug]
            exact h.map id
          · have hcount := hbuffered q hq
            rw [List.count_append] at hcount
            dsimp only [run_nil]
            omega
          · have hline := h.line hopen q hq
            dsimp only
            rw [hrecognised, List.count_append]
            rw [run_nil]
            omega
        · have hpos : 0 < (c.inFlight.map Reply.pkt).count pkt := by
            have hcount := hbuffered pkt hdebug
            rw [Option.toList_some, List.count_append, List.count_singleton_self] at hcount
            omega
          obtain ⟨k, r, hk, rfl⟩ := inFlight_of_count hpos
          refine ⟨[.store k], ?_⟩
          have hstep : clientStep c (.store k)
              = { c with
                  inFlight := c.inFlight.eraseIdx k
                  responses := insertResponse c.responses r.pkt.id r } := by
            rw [clientStep, hk]
            exact if_neg hdebug
          have hmap := store_route hk h.map
          rw [run_cons, run_nil]
          refine ⟨?_, ?_, ?_, ?_, hmap, fun q hq => ?_, fun hopen q hq => ?_⟩
          · rw [hstep]
            exact h.next
          · rw [hstep]
            exact h.port
          · rw [hstep]
            exact h.calls
          · rw [hstep]
            exact h.sent
          · have hcount := hbuffered q hq
            rw [Option.toList_some, List.count_append, count_eraseIdx hk q, List.count_singleton] at hcount
            rw [hstep]
            dsimp only
            by_cases hq' : r.pkt = q <;> simp [hq'] at hcount ⊢ <;> omega
          · have hline := h.line hopen q hq
            rw [count_eraseIdx hk q] at hline
            rw [hstep]
            dsimp only
            rw [hrecognised, List.count_append, List.count_singleton]
            by_cases hq' : r.pkt = q <;> simp [hq'] at hline ⊢ <;> omega

/-! ## The device -/

/-- **A reply the device sends answers a call of the client.** -/
theorem refines_answered (hlib : lib.Lawful) {s s' : Ends} {c : Client} (h : Refines lib s c)
    (hinv : LinkInv lib s') (hhost : s'.host = s.host) (hanswered : Answered s.board s'.board) :
    ∃ ds, Refines lib s' (run clientStep c ds) := by
  obtain ⟨new, more, hsent, hmore, hnew, hone⟩ := hanswered
  have hcount : ∀ q, q.type ≠ debugMsgCmd → new.count q = (more.map Prod.snd).count q := by
    intro q hq
    rw [← hnew, responsesIn, List.count_filter (by simpa using hq)]
  have hsame : more = [] → Refines lib s' c := by
    rintro rfl
    refine ⟨by rw [hhost]; exact h.next, by rw [hhost]; exact h.port, by rw [hhost]; exact h.calls,
      by rw [hhost]; exact h.sent, by rw [hhost]; exact h.map, by rw [hhost]; exact h.buffered,
      fun hopen q hq => ?_⟩
    rw [hhost] at hopen ⊢
    rw [hsent, List.count_append, hcount q hq]
    exact h.line hopen q hq
  cases more with
  | nil => exact ⟨[], hsame rfl⟩
  | cons a more =>
      obtain rfl : more = [] := by
        rw [List.length_cons] at hone
        exact List.length_eq_zero_iff.mp (by omega)
      -- the request was written, so the client may be answered
      have ha : a ∈ s'.board.answered := by
        rw [hmore]
        exact List.mem_append_right _ List.mem_cons_self
      obtain ⟨w, hw, hwa⟩ := List.mem_map.mp ((hinv.answered hlib).subset (List.mem_map.mpr ⟨a, ha, rfl⟩))
      obtain ⟨p, hp, hreq, _⟩ := hinv.host.written w hw
      rw [hhost] at hw hp
      obtain ⟨call, hcall, hsentCall⟩ := h.sent w hw
      obtain ⟨call', hcall', hreq', _⟩ := h.call hp
      obtain rfl : call' = call := Option.some.inj (hcall'.symm.trans hcall)
      have hid : call'.request.id = a.2.id := by
        rw [hreq', hreq, hwa, (hinv.answer.answers a ha).2.id]
      cases hopen : s.host.portOpen with
      | false =>
          refine ⟨[], by rw [hhost]; exact h.next, by rw [hhost]; exact h.port,
            by rw [hhost]; exact h.calls, by rw [hhost]; exact h.sent, by rw [hhost]; exact h.map,
            by rw [hhost]; exact h.buffered, fun hopen' => ?_⟩
          rw [hhost, hopen] at hopen'
          cases hopen'
      | true =>
          refine ⟨[.reply w.1 a.2.type a.2.payload], ?_⟩
          have hstep : clientStep c (.reply w.1 a.2.type a.2.payload)
              = { c with inFlight := c.inFlight ++ [{ answers := w.1, pkt := a.2 }] } := by
            rw [clientStep, hcall]
            dsimp only
            rw [hsentCall, h.port, hopen, hid]
            rfl
          rw [run_cons, run_nil, hstep]
          refine ⟨by rw [hhost]; exact h.next, by rw [hhost]; exact h.port,
            by rw [hhost]; exact h.calls, by rw [hhost]; exact h.sent, by rw [hhost]; exact h.map,
            fun q hq => ?_, fun _ q hq => ?_⟩
          · have hbuffered := h.buffered q hq
            rw [hhost]
            dsimp only
            rw [List.map_append, List.count_append]
            omega
          · have hline := h.line hopen q hq
            rw [hhost, hsent, List.count_append, hcount q hq]
            dsimp only
            rw [List.map_append, List.count_append]
            simp only [List.map_cons, List.map_nil]
            omega

theorem onBoard_host {s s' : Ends} {r : Except Fault (Board × List UInt8)}
    (h : s.onBoard r = .ok s') : s'.host = s.host := by
  obtain ⟨⟨board, bytes⟩, _, hs'⟩ := of_bind_eq_ok h
  rw [← Except.ok.inj hs']

/-- **A step of the link is no step of the client, or one.** -/
theorem refines_step (hlib : lib.Lawful) {s : Ends} {c : Client} (hinv : LinkInv lib s)
    (h : Refines lib s c) {e : LinkEvent} (hgood : unbroken lib (.ok s) e) :
    ∃ s' ds, linkStep lib (.ok s) e = .ok s' ∧ LinkInv lib s'
      ∧ Refines lib s' (run clientStep c ds) := by
  obtain ⟨s', hs', hinv', hanswered⟩ := linkInv_step hlib hinv hgood
  -- what the host does, and what the device does
  have hhost : ∀ t, s.step lib e = .ok t → (∃ ds, Refines lib t (run clientStep c ds)) →
      ∃ s' ds, linkStep lib (.ok s) e = .ok s' ∧ LinkInv lib s'
        ∧ Refines lib s' (run clientStep c ds) := by
    rintro t ht ⟨ds, hds⟩
    obtain rfl : t = s' := Except.ok.inj (ht.symm.trans hs')
    exact ⟨t, ds, hs', hinv', hds⟩
  have hboard : s'.host = s.host → ∃ s' ds, linkStep lib (.ok s) e = .ok s' ∧ LinkInv lib s'
      ∧ Refines lib s' (run clientStep c ds) := by
    intro hsame
    obtain ⟨ds, hds⟩ := refines_answered hlib h hinv' hsame hanswered
    exact ⟨s', ds, hs', hinv', hds⟩
  rw [linkStep, ok_bind] at hs'
  cases e with
  | begin cmdId payload awaits => exact hhost _ rfl ⟨[.begin cmdId payload awaits], refines_begin h cmdId payload awaits⟩
  | write n cut => exact hhost _ rfl (refines_write hlib h)
  | poll n => exact hhost _ rfl (refines_poll h n)
  | timeout n => exact hhost _ rfl (refines_timeout h n)
  | fetch n => exact hhost _ rfl ⟨[], refines_fetch hlib hinv h n⟩
  | frame => exact hhost _ rfl (refines_frame h)
  | close =>
      refine hhost _ rfl ⟨[.close], ?_⟩
      exact ⟨h.next, rfl, h.calls, h.sent, h.map, h.buffered, fun hopen => absurd hopen Bool.false_ne_true⟩
  | clear =>
      refine hhost _ rfl ⟨[.clear], ?_⟩
      rw [run_cons, run_nil, clientStep, HostEnd.clear]
      cases hopen : s.host.portOpen with
      | true =>
          obtain ⟨written, hport⟩ := Option.isSome_iff_exists.mp (h.port.trans hopen)
          rw [if_pos rfl, hport]
          exact h
      | false =>
          have hport : c.port = none :=
            Option.not_isSome_iff_eq_none.mp (by rw [h.port, hopen]; simp)
          rw [if_neg (by simp), if_pos (show c.port.isNone = true by rw [hport]; rfl)]
          exact ⟨h.next, h.port.trans hopen, h.calls, h.sent, fun _ => rfl, h.buffered,
            fun hopen' => absurd hopen' Bool.false_ne_true⟩
  | byte msg =>
      refine hboard ?_
      rw [Ends.step] at hs'
      split at hs'
      · rw [← Except.ok.inj hs']
      · obtain ⟨_, _, hs'⟩ := of_bind_eq_ok hs'
        rw [← Except.ok.inj hs']
  | start =>
      refine hboard ?_
      obtain ⟨_, _, hs'⟩ := of_bind_eq_ok hs'
      rw [← Except.ok.inj hs']
  | next => exact hboard (onBoard_host hs')
  | pass contiguous accepted => exact hboard (onBoard_host hs')
  | expire => exact hboard (onBoard_host hs')
  | work =>
      refine hboard ?_
      rw [Ends.step] at hs'
      split at hs'
      · rw [← Except.ok.inj hs']
      · exact onBoard_host hs'
  | report message => exact hboard (onBoard_host hs')

/--
**The link refines the client.**

Whatever an unbroken run of bytes, passes, messages and polls does, some run of the
client, in which whole packets are written, answered and stored, leads to the same
calls in the same phases, the same next id and the same map. So what holds of the
callers of every client holds of the callers on the link.
-/
theorem link_refines_client (hlib : lib.Lawful) (device : Device) {es : List LinkEvent}
    (hgood : Along (linkStep lib) (unbroken lib) (.ok (Ends.init device)) es) :
    ∃ s ds, run (linkStep lib) (.ok (Ends.init device)) es = .ok s
      ∧ (run clientStep Client.init ds).nextId = s.host.nextId
      ∧ (run clientStep Client.init ds).port.isSome = s.host.portOpen
      ∧ (run clientStep Client.init ds).calls.map seen = s.host.calls.map Pending.seen
      ∧ ∀ id, s.host.reader.responses id
          = ((run clientStep Client.init ds).responses id).map Reply.pkt := by
  obtain ⟨ds, s, hs, _, href⟩ := @run_simulates _ _ _ _ _ _ clientStep
    (fun s c => ∃ l, s = .ok l ∧ LinkInv lib l ∧ Refines lib l c)
    (fun s c e hR hunbroken => by
      obtain ⟨l, rfl, hinv, h⟩ := hR
      obtain ⟨l', ds, hl', hinv', h'⟩ := refines_step hlib hinv h hunbroken
      exact ⟨ds, l', hl', hinv', h'⟩)
    _ _ ⟨Ends.init device, rfl, linkInv_init lib device, refines_init device⟩ _ hgood
  exact ⟨s, ds, hs, href.next, href.port, href.calls, href.map⟩

end Libs

theorem link_refines_client_signal :
    ∃ (s : Ends) (ds : List ClientEvent),
      (run clientStep Client.init ds).calls.map seen = s.host.calls.map Pending.seen
      ∧ s.host.results = [.ok [], .error .timeout, .ok [0x00, 0x4F, 0x6A, 0x3C, 0, 0, 0, 0]] := by
  obtain ⟨s', ⟨es, hgood, hs'⟩, _, _, hresults, _⟩ :=
    leads_session realLibs_lawful someCommands_plain (idle_init bareDevice)
  obtain ⟨s, ds, hs, _, _, hcalls, _⟩ := link_refines_client realLibs_lawful bareDevice hgood
  obtain rfl : s = s' := Except.ok.inj (hs.symm.trans hs')
  refine ⟨s, ds, hcalls, ?_⟩
  rw [hresults]
  decide +kernel

end MiniHF.Link
