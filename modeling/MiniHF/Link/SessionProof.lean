import MiniHF.Link.ExchangeProof

/-!
# A session

Commands one after another on an idle line. Each call can run to its end, and what
it returns is what `transact` returns on a line that delivers every packet, except
where a test signal starts: there the texts of the start take the frame of the ACK
with them, and the call times out although the device has done what it was told.
-/

namespace MiniHF.Link

open Buffer Delimited Runs Host Device

section Libs

variable {lib : Libs}

/-- Nothing is on its way, and nobody has anything to do. -/
structure Idle (s : Ends) : Prop where
  portOpen : s.host.portOpen = true
  buf : s.host.reader.rxBuf = []
  map : s.host.reader.responses = fun _ => none
  down : s.down.inside = []
  up : s.up.inside = []
  receiver : Resting s.board.receiver
  transmit : s.board.transmit.txRingBuf.items = []

theorem idle_init (device : Device) : Idle (Ends.init device) :=
  ⟨rfl, rfl, rfl, rfl, rfl, ⟨rfl, rfl, rfl⟩, rfl⟩

/-! ## What the device sends -/

/-- The request starts a test signal. -/
def startsSignal (d : Device) (p : Packet) : Prop :=
  p.type = 0x07 ∧ (testSignalFor p.payload d).isSome = true

instance (d : Device) (p : Packet) : Decidable (startsSignal d p) :=
  inferInstanceAs (Decidable (_ ∧ _))

theorem preamble_cases (p : Packet) (d : Device) :
    (∃ seq, startsSignal d p ∧ preamble p d = stopTexts ++ [.printk (startedText seq)])
      ∨ ¬ startsSignal d p
        ∧ (preamble p d = [] ∨ preamble p d = [.packet (debugPacket notActiveText)]) := by
  rw [preamble, startsSignal]
  by_cases htype : p.type = 0x07
  · rw [if_pos htype]
    cases htest : testSignalFor p.payload d with
    | some seq => exact Or.inl ⟨seq, ⟨htype, rfl⟩, rfl⟩
    | none =>
        refine Or.inr ⟨by simp, ?_⟩
        cases d.txActive with
        | true => exact Or.inl rfl
        | false => exact Or.inr rfl
  · rw [if_neg htype]
    exact Or.inr ⟨fun h => htype h.1, Or.inl rfl⟩

theorem replyFrames_eq (ps : List Packet) :
    replyFrames lib ps = close 0 (ps.map (frameBody lib.crc16Ccitt)) := by
  rw [replyFrames, close, List.flatMap_map]
  rfl

theorem frame_length_le {crc16Ccitt : UInt16 → List UInt8 → UInt16} {p : Packet}
    (h : p.payload.length ≤ 255) : (MiniHF.frame crc16Ccitt p).length ≤ p.payload.length + 10 := by
  rw [frame_length]
  exact Nat.succ_le_succ (frameBody_length crc16Ccitt h).2

theorem notActive_short : (debugPacket notActiveText).payload.length ≤ 60 := by
  decide +kernel

/-- One reply, with a debug message in front of it or not, fits the ring. -/
theorem sends_reply {out : List Output} {reply : Packet} (hshort : reply.payload.length ≤ 255)
    (hout : out = [.packet reply] ∨ out = [.packet (debugPacket notActiveText), .packet reply]) :
    ∃ debug : List Packet, (∀ q ∈ debug, q.type = debugMsgCmd) ∧ Sends lib out [] (debug ++ [reply]) := by
  have hreply := @frame_length_le lib.crc16Ccitt _ hshort
  have hsize : txRingBufSize = 512 := rfl
  rcases hout with rfl | rfl
  · refine ⟨[], by simp, rfl, by simp, by simpa using hshort, ?_⟩
    rw [List.nil_append, replyFrames, List.flatMap_singleton]
    omega
  · have hnote := notActive_short
    have hdebug := @frame_length_le lib.crc16Ccitt (debugPacket notActiveText) (by omega)
    refine ⟨[debugPacket notActiveText], by simp [debugPacket, debugMsgCmd], rfl, by simp, ?_, ?_⟩
    · intro q hq
      simp only [List.cons_append, List.nil_append, List.mem_cons, List.not_mem_nil, or_false] at hq
      rcases hq with rfl | rfl
      · omega
      · exact hshort
    · simp only [replyFrames, List.cons_append, List.nil_append, List.flatMap_cons,
        List.flatMap_nil, List.append_nil, List.length_append]
      omega

/-- The map with an answer in it, if there is one. -/
def storeAnswer (responses : UInt16 → Option Packet) (id : UInt16) :
    Option Packet → UInt16 → Option Packet
  | some reply => insertResponse responses id reply
  | none => responses

/-- What the call makes of it. -/
def answerResult : Option Packet → Except MiniHFError (List UInt8)
  | some reply => (resultOf reply).result
  | none => .error .timeout

/-- What the reader holds when it has read what a request made the device send. -/
structure Heard (lib : Libs) (r : Reader) (bytes : List UInt8) (answer : Option Packet) (id : UInt16) :
    Prop where
  buf : (({ r with rxBuf := bytes } : Reader).drain lib.decodeVec lib.crc16Kermit).rxBuf = []
  map : (({ r with rxBuf := bytes } : Reader).drain lib.decodeVec lib.crc16Kermit).responses
    = storeAnswer r.responses id answer

/-- Frames alone: the reader stores the reply. -/
theorem heard_reply (hlib : lib.Lawful) (r : Reader) {debug : List Packet} {reply : Packet}
    (hdebug : ∀ q ∈ debug, q.type = debugMsgCmd)
    (hshort : ∀ q ∈ debug ++ [reply], q.payload.length ≤ 255) (htype : reply.type ≠ debugMsgCmd) :
    Heard lib r (replyFrames lib (debug ++ [reply])) (some reply) reply.id := by
  have hpackets : packetsOf lib.decodeVec lib.crc16Kermit (replyFrames lib (debug ++ [reply]))
      = debug ++ [reply] := by
    have h := packetsOf_wire hlib.crc hlib.decode hshort
    rw [wire, List.flatMap_map] at h
    exact h
  constructor
  · rw [drain_spec]
    dsimp only
    rw [replyFrames_eq, rest_close]
  · rw [drain_spec]
    dsimp only
    rw [hpackets, routeAll_setRxBuf]
    dsimp only
    rw [routeAll_append, Reader.routeAll, List.foldl_cons, List.foldl_nil, Reader.route,
      if_neg htype]
    dsimp only
    rw [routeAll_debug hdebug]
    rfl

/-- Nothing at all. -/
theorem heard_nothing (r : Reader) (id : UInt16) : Heard lib r [] none id := by
  constructor
  · rw [drain_none _ _ (findIdx_clean (by simp))]
  · rw [drain_none _ _ (findIdx_clean (by simp))]
    rfl

/-- The texts of a start in front of the frame: the reader cuts one piece and drops it. -/
theorem heard_started (hlib : lib.Lawful) (r : Reader) (seq : TxSequence) (reply : Packet) (id : UInt16) :
    Heard lib r (["tx_engine: stopping\n", "tx_engine: TX off\n", startedText seq].flatMap textBytes
      ++ replyFrames lib [reply]) none id := by
  have hwire : wire lib.crc16Ccitt (stopTexts ++ [.printk (startedText seq), .packet reply])
      = ["tx_engine: stopping\n", "tx_engine: TX off\n", startedText seq].flatMap textBytes
        ++ replyFrames lib [reply] := by
    simp [wire, stopTexts, offText, replyFrames]
  have hpackets := @packetsOf_started lib.crc16Ccitt lib.crc16Kermit _ hlib.decode seq
    reply
  rw [hwire] at hpackets
  constructor
  · rw [drain_spec]
    dsimp only
    rw [replyFrames, List.flatMap_singleton, MiniHF.frame, ← List.append_assoc, rest_snoc_self]
  · rw [drain_spec]
    dsimp only
    rw [hpackets]
    rfl

/-- **What a request makes the device send**, and what the host hears of it. -/
theorem dispatch_heard (hlib : lib.Lawful) {p : Packet} (hreset : p.type ≠ 0xFD) (d : Device)
    (r : Reader) :
    ∃ texts ps answer, Sends lib (outputSince d (d.dispatch p)) texts ps
      ∧ Heard lib r (texts.flatMap textBytes ++ replyFrames lib ps) answer p.id
      ∧ answer = if startsSignal d p then none
          else (replies (outputSince d (d.dispatch p))).find? (·.id = p.id) := by
  by_cases hreg : Registered p
  · obtain ⟨reply, hans, hout⟩ := dispatch_out hreg hreset d
    have hsince : outputSince d (d.dispatch p) = preamble p d ++ [.packet reply] := by
      rw [outputSince, hout, List.drop_left]
    have htype := hans.type_ne hreg
    rw [hsince, replies_dispatch hreg hans]
    rcases preamble_cases p d with ⟨seq, hstarts, hpre⟩ | ⟨hquiet, hpre⟩
    · rw [hpre, if_pos hstarts]
      refine ⟨["tx_engine: stopping\n", "tx_engine: TX off\n", startedText seq], [reply], none, ?_,
        heard_started hlib r seq reply p.id, rfl⟩
      have hlen := @frame_length_le lib.crc16Ccitt _ hans.short
      refine ⟨rfl, ?_, by simpa using hans.short, ?_⟩
      · have hpre' := preamble_texts p d
        rw [hpre] at hpre'
        intro text ht
        refine hpre' text ?_
        simpa [stopTexts, offText, or_assoc] using ht
      · rw [replyFrames, List.flatMap_singleton, show txRingBufSize = 512 from rfl]
        have := hans.short
        omega
    · obtain ⟨debug, hdebug, hsends⟩ := @sends_reply lib
        (preamble p d ++ [.packet reply]) _ hans.short (by
          rcases hpre with hpre | hpre <;> rw [hpre]
          · exact Or.inl rfl
          · exact Or.inr rfl)
      have hheard := heard_reply hlib r hdebug hsends.short htype
      rw [hans.id] at hheard
      refine ⟨[], debug ++ [reply], some reply, hsends, hheard, ?_⟩
      rw [if_neg hquiet, List.find?_cons_of_pos (by simpa using hans.id)]
  · have hsince : outputSince d (d.dispatch p) = [] := by
      rw [dispatch_unregistered hreg, outputSince_self]
    refine ⟨[], [], none, ?_, heard_nothing r p.id, ?_⟩
    · rw [hsince]
      exact ⟨rfl, by simp, by simp, Nat.zero_le _⟩
    · rw [hsince]
      split <;> rfl

/-! ## One call after another -/

/-- A command on this line: as `transact` has it, but the ACK of a test signal is lost. -/
def lineTransact (lib : Libs) (d : Device) (id : UInt16) (cmdId : UInt8) (payload : List UInt8) :
    Except MiniHFError (List UInt8) × Device :=
  let (result, d') := transact lib.crc16Ccitt lib.crc16Kermit d id cmdId payload
  (if startsSignal d { type := cmdId, id, payload } then .error .timeout else result, d')

/-- Commands one after another, under the ids from `id` on. -/
def session (lib : Libs) (d : Device) (id : UInt16) :
    List (UInt8 × List UInt8) → List (Except MiniHFError (List UInt8)) × Device
  | [] => ([], d)
  | (cmdId, payload) :: commands =>
      let (result, d) := lineTransact lib d id cmdId payload
      let (results, d) := session lib d (id + 1) commands
      (result :: results, d)

/-- What a call has returned, if it has. -/
def Pending.returned (c : Pending) : Option (Except MiniHFError (List UInt8)) :=
  match c.phase with
  | .returned result => some result.result
  | _ => none

theorem lineTransact_eq (hlib : lib.Lawful) {p : Packet} (hp : p.payload.length ≤ 255) (d : Device) :
    lineTransact lib d p.id p.type p.payload
      = (answerResult (if startsSignal d p then none
          else (replies (outputSince d (d.dispatch p))).find? (·.id = p.id)), d.dispatch p) := by
  have hdispatch : d.parseDispatchPacket lib.crc16Ccitt (packetBytes lib.crc16Ccitt p)
      = d.dispatch p := by
    rw [parseDispatchPacket, checkPacket_request hp]
  rw [lineTransact, transact, buildPacket_eq hlib.crc p hp]
  dsimp only
  rw [hdispatch]
  by_cases hstarts : startsSignal d p
  · rw [if_pos hstarts, if_pos hstarts]
    split <;> rfl
  · rw [if_neg hstarts, if_neg hstarts]
    cases (replies (outputSince d (d.dispatch p))).find? (·.id = p.id) <;> rfl

/-- Taking an id on an open port, and writing the frame. -/
theorem leads_written (hlib : lib.Lawful) {s : Ends} (hidle : Idle s) {p : Packet}
    (hid : p.id = s.host.nextId) (hp : p.payload.length ≤ 255) :
    ∃ host, Leads lib s { s with host, down := s.down.send (requestBody lib p ++ [0]) }
      ∧ host.reader = s.host.reader ∧ host.portOpen = true ∧ host.nextId = s.host.nextId + 1
      ∧ host.calls = s.host.calls ++ [{ request := p, awaits := true, phase := .waiting, short := hp }] := by
  obtain ⟨type, id, payload⟩ := p
  obtain rfl : id = s.host.nextId := hid
  let c : Pending :=
    { request := { type, id := s.host.nextId, payload }, awaits := true, phase := .allocated, short := hp }
  let h₁ : HostEnd :=
    { s.host with nextId := s.host.nextId + 1, calls := s.host.calls ++ [c] }
  have hbegin : Leads lib s { s with host := h₁ } := by
    refine leads_plain (e := .begin type payload true) trivial id rfl ?_
    rw [Ends.step, HostEnd.begin, dif_neg (Nat.not_lt.mpr hp)]
  have hc : h₁.calls[s.host.calls.length]? = some c := by
    show (s.host.calls ++ [c])[s.host.calls.length]? = some c
    rw [List.getElem?_append_right (Nat.le_refl _), Nat.sub_self]
    rfl
  refine ⟨{ h₁.setCall s.host.calls.length { c with phase := .waiting } with
    written := h₁.written ++ [(s.host.calls.length, c.request)] }, hbegin.trans
      (leads_plain (e := .write s.host.calls.length none) trivial id rfl ?_), rfl, hidle.portOpen, rfl, ?_⟩
  · have hwrite : h₁.write lib s.host.calls.length none
        = ({ h₁.setCall s.host.calls.length { c with phase := .waiting } with
            written := h₁.written ++ [(s.host.calls.length, c.request)] },
            requestBody lib c.request ++ [0]) := by
      rw [HostEnd.write, hc]
      dsimp only
      rw [if_pos rfl, if_pos hidle.portOpen, framePacket_eq hlib c.short]
      rfl
    rw [Ends.step]
    dsimp only
    rw [hwrite]
  · show (s.host.calls ++ [c]).set s.host.calls.length _ = _
    rw [List.set_append_right _ _ (Nat.le_refl _), Nat.sub_self]
    rfl

/-- The call looks into the map, or gives up where nothing will come. -/
theorem leads_result {s : Ends} {n : Nat} {c : Pending} (hc : s.host.calls[n]? = some c)
    (hw : c.phase = .waiting) {answer : Option Packet}
    (hmap : s.host.reader.responses = storeAnswer (fun _ => none) c.request.id answer) :
    ∃ reader result, Leads lib s { s with host :=
        { s.host.setCall n { c with phase := .returned result } with reader } }
      ∧ reader.rxBuf = s.host.reader.rxBuf ∧ reader.responses = (fun _ => none)
      ∧ result.result = answerResult answer := by
  cases answer with
  | some reply =>
      have hfound : s.host.reader.responses c.request.id = some reply := by
        rw [hmap]
        exact if_pos rfl
      refine ⟨{ s.host.reader with
        responses := fun id => if id = c.request.id then none else s.host.reader.responses id },
        resultOf reply, leads_plain (e := .poll n) trivial id rfl ?_, rfl, ?_, rfl⟩
      · rw [Ends.step, HostEnd.poll, hc]
        dsimp only
        rw [if_pos hw, hfound]
      · rw [hmap]
        funext id
        dsimp only [storeAnswer, insertResponse]
        split <;> rfl
  | none =>
      refine ⟨s.host.reader, .timeout, leads_plain (e := .timeout n) trivial id rfl ?_, rfl, hmap, rfl⟩
      rw [Ends.step, HostEnd.timeout, hc]
      dsimp only
      rw [if_pos hw]
      rfl

/-- **One call runs to its end**, and the line is idle again. -/
theorem leads_exchange (hlib : lib.Lawful) {s : Ends} (hidle : Idle s) {p : Packet}
    (hid : p.id = s.host.nextId) (hp : p.payload.length ≤ 255) (hreset : p.type ≠ 0xFD) :
    ∃ s' c, Leads lib s s' ∧ Idle s' ∧ s'.host.nextId = s.host.nextId + 1
      ∧ s'.host.calls = s.host.calls ++ [c] ∧ c.request = p ∧ c.awaits = true
      ∧ c.returned = some (lineTransact lib s.board.device p.id p.type p.payload).1
      ∧ s'.board.device = (lineTransact lib s.board.device p.id p.type p.payload).2 := by
  obtain ⟨h₁, hleads₁, hreader₁, hopen₁, hnext₁, hcalls₁⟩ := leads_written hlib hidle hid hp
  have hinside : (s.down.send (requestBody lib p ++ [0])).inside = requestBody lib p ++ [0] := by
    rw [Pipe.send, hidle.down, List.nil_append]
  obtain ⟨receiver, msg, hleads₂, hring, hqueue, hmsg, hwork, hrunning⟩ :=
    leads_frame (s := { s with host := h₁, down := s.down.send (requestBody lib p ++ [0]) })
      hlib hp hinside hidle.receiver
  obtain ⟨texts, ps, answer, hsends, hheard, hanswer⟩ :=
    dispatch_heard hlib hreset s.board.device s.host.reader
  obtain ⟨board, hleads₃, hresting, hdevice, hframes⟩ := @leads_handled lib
    { s with
      host := h₁
      down := ⟨(s.down.send (requestBody lib p ++ [0])).taken ++ requestBody lib p ++ [0], []⟩
      board := { s.board with receiver } }
    _ _ hring hqueue hmsg hp hreset hwork hrunning hidle.transmit _ _ hsends
  obtain ⟨transmit, hleads₄, hempty⟩ := @leads_passes lib 8
    { s with
      host := h₁
      down := ⟨(s.down.send (requestBody lib p ++ [0])).taken ++ requestBody lib p ++ [0], []⟩
      board, up := s.up.send (texts.flatMap textBytes) }
    (by
      dsimp only
      rw [hframes]
      exact hsends.fits)
  -- what the reader finds is the texts, then the frames
  have hup : ((s.up.send (texts.flatMap textBytes)).send (replyFrames lib ps)).inside
      = texts.flatMap textBytes ++ replyFrames lib ps := by
    rw [Pipe.send, Pipe.send, hidle.up, List.nil_append]
  dsimp only at hleads₄
  rw [hframes] at hleads₄
  have hleads₅ := @leads_read lib
    { s with
      host := h₁
      down := ⟨(s.down.send (requestBody lib p ++ [0])).taken ++ requestBody lib p ++ [0], []⟩
      board := { board with transmit }
      up := (s.up.send (texts.flatMap textBytes)).send (replyFrames lib ps) }
    hopen₁ (by rw [hreader₁]; exact hidle.buf)
  dsimp only at hleads₅
  rw [hup, hreader₁] at hleads₅
  generalize hread : ({ s.host.reader with rxBuf := texts.flatMap textBytes ++ replyFrames lib ps }
    : Reader).drain lib.decodeVec lib.crc16Kermit = reader at hleads₅
  have hbuf : reader.rxBuf = [] := by
    rw [← hread]
    exact hheard.buf
  have hmap : reader.responses = storeAnswer (fun _ => none) p.id answer := by
    rw [← hread, hheard.map, hidle.map]
  have hc : h₁.calls[s.host.calls.length]?
      = some { request := p, awaits := true, phase := .waiting, short := hp } := by
    rw [hcalls₁, List.getElem?_append_right (Nat.le_refl _), Nat.sub_self]
    rfl
  obtain ⟨reader', result, hleads₆, hbuf', hmap', hresult⟩ := @leads_result lib
    { s with
      host := { h₁ with reader }
      down := ⟨(s.down.send (requestBody lib p ++ [0])).taken ++ requestBody lib p ++ [0], []⟩
      board := { board with transmit }
      up := ⟨((s.up.send (texts.flatMap textBytes)).send (replyFrames lib ps)).taken
        ++ (texts.flatMap textBytes ++ replyFrames lib ps), []⟩ }
    _ _ hc rfl _ hmap
  refine ⟨_, { request := p, awaits := true, phase := .returned result, short := hp },
    ((((hleads₁.trans hleads₂).trans hleads₃).trans hleads₄).trans hleads₅).trans hleads₆,
    ⟨hopen₁, hbuf'.trans hbuf, hmap', rfl, rfl, hresting, hempty⟩, hnext₁, ?_, rfl, rfl, ?_, ?_⟩
  · show h₁.calls.set s.host.calls.length _ = _
    rw [hcalls₁, List.set_append_right _ _ (Nat.le_refl _), Nat.sub_self]
    rfl
  · rw [lineTransact_eq hlib hp, ← hanswer]
    exact congrArg some hresult
  · rw [lineTransact_eq hlib hp]
    exact hdevice

/-- What the calls have returned, those of which nothing is known yet left out. -/
def HostEnd.results (h : HostEnd) : List (Except MiniHFError (List UInt8)) :=
  h.calls.filterMap Pending.returned

theorem leads_session (hlib : lib.Lawful) {commands : List (UInt8 × List UInt8)}
    (hcommands : ∀ c ∈ commands, c.2.length ≤ 255 ∧ c.1 ≠ 0xFD) {s : Ends} (hidle : Idle s) :
    ∃ s', Leads lib s s' ∧ Idle s'
      ∧ s'.host.calls.length = s.host.calls.length + commands.length
      ∧ s'.host.results = s.host.results ++ (session lib s.board.device s.host.nextId commands).1
      ∧ s'.board.device = (session lib s.board.device s.host.nextId commands).2 := by
  induction commands generalizing s with
  | nil => exact ⟨s, Leads.refl lib s, hidle, rfl, (List.append_nil _).symm, rfl⟩
  | cons command commands ih =>
      obtain ⟨cmdId, payload⟩ := command
      obtain ⟨⟨hp, hreset⟩, hmore⟩ := List.forall_mem_cons.mp hcommands
      obtain ⟨s₁, c, hleads, hidle₁, hnext, hcalls, _, _, hreturned, hdevice⟩ :=
        leads_exchange hlib hidle (p := { type := cmdId, id := s.host.nextId, payload }) rfl hp hreset
      obtain ⟨s', hleads', hidle', hlength, hresults, hdevice'⟩ := ih hmore hidle₁
      refine ⟨s', hleads.trans hleads', hidle', ?_, ?_, ?_⟩
      · rw [hlength, hcalls, List.length_append, List.length_singleton, List.length_cons]
        omega
      · rw [hresults, HostEnd.results, hcalls, List.filterMap_append, List.filterMap_cons, hreturned,
          hdevice, hnext, List.append_assoc]
        rfl
      · rw [hdevice', hdevice, hnext]
        rfl

end Libs

end MiniHF.Link
