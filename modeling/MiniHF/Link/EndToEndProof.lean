import MiniHF.Link.SessionProof

/-!
# From end to end

What the invariant of the link says of its two ends: nothing is handled that was not
written, nothing is recognised that was not sent, and whoever gets a reply gets the
one to its own request. The other direction is a matter of the schedule, and a
session shows one that completes every call.
-/

namespace MiniHF.Link

open Delimited Runs Host Device

section Libs

variable {lib : Libs}

/-- The messages handled are requests that were written, in their order. -/
theorem DownInv.dispatched (hlib : lib.Lawful) {host : HostEnd} {down : Pipe UInt8} {r : Receiver}
    (h : DownInv lib host down r) :
    r.dispatched.Sublist (host.written.map fun w => packetBytes lib.crc16Ccitt w.2) := by
  have hfirst : r.dispatched.Sublist r.accepted := by
    rw [← h.queue.order]
    exact List.sublist_append_left _ _
  have htaken : down.taken <+: requests lib (host.written.map Prod.snd) := by
    rw [← h.stream]
    exact down.taken_prefix
  have hdecoded := requests_decoded hlib htaken
  rw [List.map_map] at hdecoded
  exact (hfirst.trans h.accepted).trans hdecoded.sublist

theorem checkPacket_written {written : List (Nat × Packet)}
    (hshort : ∀ w ∈ written, w.2.payload.length ≤ 255) :
    (written.map fun w => packetBytes lib.crc16Ccitt w.2).filterMap (checkPacket lib.crc16Ccitt)
      = written.map Prod.snd := by
  induction written with
  | nil => rfl
  | cons w written ih =>
      obtain ⟨hw, hmore⟩ := List.forall_mem_cons.mp hshort
      rw [List.map_cons, List.filterMap_cons, checkPacket_request hw, ih hmore]
      rfl

/-- A call that has returned `Ok` has got a payload. -/
theorem Pending.phase_of_ok {c : Pending} {payload : List UInt8}
    (h : c.returned = some (.ok payload)) : c.phase = .returned (.ok payload) := by
  rw [Pending.returned] at h
  split at h
  · rename_i result hphase
    rw [hphase]
    cases result <;> simp_all [Host.CallResult.result]
  · cases h

/-- What was answered was written, in its order. -/
theorem LinkInv.answered (hlib : lib.Lawful) {s : Ends} (h : LinkInv lib s) :
    (s.board.answered.map Prod.fst).Sublist (s.host.written.map Prod.snd) := by
  have honce := h.answer.once.trans ((h.down.dispatched hlib).filterMap _)
  rwa [checkPacket_written h.down.short] at honce

/-- What was recognised was sent, in its order. -/
theorem UpInv.recognised (hlib : lib.Lawful) {t : Transmit} {up : Pipe UInt8} {reader : Reader}
    (h : UpInv lib t up reader) : reader.recognised.Sublist t.sent := by
  obtain ⟨done, htaken, _, hrec⟩ := h.read
  rw [hrec]
  refine h.stream.recognised hlib ?_
  have hdone : done <+: up.taken := ⟨reader.rxBuf, htaken.symm⟩
  exact (hdone.trans up.taken_prefix).trans (List.prefix_append _ _)

/-- Calls with the same id are one call, as long as the ids have not come round. -/
theorem HostInv.same_call {h : HostEnd} (hinv : HostInv h) (hfew : h.calls.length ≤ 65536)
    {n m : Nat} {c c' : Pending} (hc : h.calls[n]? = some c) (hc' : h.calls[m]? = some c')
    (hid : c.request.id = c'.request.id) : n = m := by
  have hn := (List.getElem?_eq_some_iff.mp hc).1
  have hm := (List.getElem?_eq_some_iff.mp hc').1
  rw [hinv.ids n c hc, hinv.ids m c' hc'] at hid
  have hnat := congrArg UInt16.toNat hid
  simp only [UInt16.toNat_ofNat'] at hnat
  omega

/-- No request is written twice. -/
theorem HostInv.written_nodup {h : HostEnd} (hinv : HostInv h) (hfew : h.calls.length ≤ 65536) :
    (h.written.map Prod.snd).Nodup := by
  have honce := hinv.once
  rw [List.Nodup, List.pairwise_map] at honce ⊢
  refine List.Pairwise.imp_of_mem ?_ honce
  intro w w' hw hw' hne heq
  obtain ⟨c, hc, hreq, _⟩ := hinv.written w hw
  obtain ⟨c', hc', hreq', _⟩ := hinv.written w' hw'
  exact hne (hinv.same_call hfew hc hc' (by rw [hreq, hreq', heq]))

/--
**Neither end makes anything up.**

Along any run in which no frame is broken nothing faults. The messages handled are
requests that calls have written, in the order written and none twice; the replies
sent answer them, each request once; and what the reader recognises was sent, in the
order sent, and is a debug message or such a reply. A full queue and a full ring may
lose packets, text may swallow frames, and that is all.
-/
theorem link_sound (hlib : lib.Lawful) (device : Device) {es : List LinkEvent}
    (hgood : Along (linkStep lib) (unbroken lib) (.ok (Ends.init device)) es) :
    ∃ s, run (linkStep lib) (.ok (Ends.init device)) es = .ok s
      ∧ s.board.receiver.dispatched.Sublist
          (s.host.written.map fun w => packetBytes lib.crc16Ccitt w.2)
      ∧ (s.host.written.map Prod.fst).Nodup
      ∧ (∀ w ∈ s.host.written, ∃ c, s.host.calls[w.1]? = some c ∧ c.request = w.2)
      ∧ (s.board.answered.map Prod.fst).Sublist (s.host.written.map Prod.snd)
      ∧ (∀ a ∈ s.board.answered, Registered a.1 ∧ Answers a.1 a.2)
      ∧ s.host.reader.recognised.Sublist s.board.transmit.sent
      ∧ ∀ q ∈ s.host.reader.recognised,
          q.type = debugMsgCmd ∨ ∃ p, (p, q) ∈ s.board.answered := by
  obtain ⟨s, hs, h⟩ := linkInv_run hlib (linkInv_init lib device) hgood
  have hrec := h.up.recognised hlib
  refine ⟨s, hs, h.down.dispatched hlib, h.host.once, ?_, h.answered hlib, h.answer.answers, hrec,
    fun q hq => h.answer.sent q (hrec.subset hq)⟩
  intro w hw
  obtain ⟨c, hc, hreq, _⟩ := h.host.written w hw
  exact ⟨c, hc, hreq⟩

/-- Whoever has got a reply has got the one to its own request, which was handled once. -/
theorem LinkInv.own (hlib : lib.Lawful) {s : Ends} (h : LinkInv lib s)
    (hfew : s.host.calls.length ≤ 65536) {n : Nat} {c : Pending} (hc : s.host.calls[n]? = some c)
    (hawaits : c.awaits = true) {result : Host.CallResult} (hphase : c.phase = .returned result)
    (hresult : result.answered = true) :
    (s.board.answered.map Prod.fst).count c.request = 1
      ∧ ∃ reply, (c.request, reply) ∈ s.board.answered ∧ Answers c.request reply
        ∧ result = resultOf reply := by
  obtain ⟨reply, hmem, htype, hid, hres⟩ := h.host.returned n c hc hawaits result hphase hresult
  -- the reply was sent to some request, and only the call's own has its id
  have hsent := (h.up.recognised hlib).subset hmem
  obtain ⟨p, hp⟩ := (h.answer.sent reply hsent).resolve_left htype
  have hans := (h.answer.answers _ hp).2
  have hp₁ : p ∈ s.board.answered.map Prod.fst := List.mem_map.mpr ⟨_, hp, rfl⟩
  obtain ⟨w, hw, rfl⟩ := List.mem_map.mp ((h.answered hlib).subset hp₁)
  obtain ⟨c', hc', hreq, _⟩ := h.host.written w hw
  have hsame := h.host.same_call hfew hc' hc (by rw [hreq, ← hans.id, hid])
  rw [hsame, hc, Option.some.injEq] at hc'
  subst hc'
  rw [hreq] at *
  refine ⟨Nat.le_antisymm ?_ (List.one_le_count_iff.mpr hp₁), reply, hp, hans, hres⟩
  exact Nat.le_trans ((h.answered hlib).count_le _)
    (List.nodup_iff_count.mp (h.host.written_nodup hfew) _)

/--
**A call that returns a reply returns the answer to its own request.**

Along any such run, and as long as there are no more calls than ids: where a
`transact` has returned a payload or a NACK, the device has handled exactly its
request, exactly once, and the result is the reply it sent then.
-/
theorem own_answer (hlib : lib.Lawful) (device : Device) {es : List LinkEvent}
    (hgood : Along (linkStep lib) (unbroken lib) (.ok (Ends.init device)) es) {s : Ends}
    (hs : run (linkStep lib) (.ok (Ends.init device)) es = .ok s)
    (hfew : s.host.calls.length ≤ 65536) {n : Nat} {c : Pending} (hc : s.host.calls[n]? = some c)
    (hawaits : c.awaits = true) {result : Host.CallResult} (hphase : c.phase = .returned result)
    (hresult : result.answered = true) :
    (s.board.answered.map Prod.fst).count c.request = 1
      ∧ ∃ reply, (c.request, reply) ∈ s.board.answered ∧ Answers c.request reply
        ∧ result = resultOf reply := by
  obtain ⟨s', hs', h⟩ := linkInv_run hlib (linkInv_init lib device) hgood
  obtain rfl : s' = s := Except.ok.inj (hs'.symm.trans hs)
  exact h.own hlib hfew hc hawaits hphase hresult

/--
**A session runs as on a perfect line, but for the ACK of a test signal.**

On an idle link any commands other than a reset can be carried out one after
another without a broken frame: every call returns, with what `transact` returns
there, or with a timeout where it starts a test signal or no handler knows its type;
and the device ends up where the commands alone take it.
-/
theorem session_completes (hlib : lib.Lawful) {commands : List (UInt8 × List UInt8)}
    (hcommands : ∀ c ∈ commands, c.2.length ≤ 255 ∧ c.1 ≠ 0xFD) {s : Ends} (hidle : Idle s) :
    ∃ s', Reaches (linkStep lib) (unbroken lib) (.ok s) (.ok s') ∧ Idle s'
      ∧ s'.host.calls.length = s.host.calls.length + commands.length
      ∧ s'.host.results = s.host.results ++ (session lib s.board.device s.host.nextId commands).1
      ∧ s'.board.device = (session lib s.board.device s.host.nextId commands).2 :=
  leads_session hlib hcommands hidle

end Libs

/-! ## On the real functions -/

/-- The functions as they are. -/
def realLibs : Libs where
  crc16Ccitt := Crc16.crc16
  crc16Kermit := Crc16.crc16 0
  encode := cobs
  decodeVec := Stuffing.unstuff cobsCoding
  junk n := Vector.replicate n 0

theorem realLibs_lawful : realLibs.Lawful :=
  ⟨fun _ => rfl, fun x => ⟨cobs_clean x, Stuffing.unstuff_stuff cobsCoding (by decide) x⟩,
    fun _ _ => rfl⟩

/-- A device for the runs below. -/
def bareDevice : Device := boot (fun _ => 0) ⟨126, 6, 4, 12, 30, 59⟩ 0 []

/-- The switch goes to transmit, a test signal starts, and the base frequency is asked for. -/
def someCommands : List (UInt8 × List UInt8) :=
  [(0x08, [0x01]), (0x07, [0xE8, 0x03, 0x00, 0x00]), (0x04, [])]

theorem someCommands_plain : ∀ c ∈ someCommands, c.2.length ≤ 255 ∧ c.1 ≠ 0xFD := by
  decide

instance : DecidableEq (Except MiniHFError (List UInt8))
  | .ok _, .ok _ => decidable_of_iff _ (Except.ok.injEq ..).symm.to_iff
  | .error _, .error _ => decidable_of_iff _ (Except.error.injEq ..).symm.to_iff
  | .ok _, .error _ => isFalse nofun
  | .error _, .ok _ => isFalse nofun

/-- The ACK of the test signal is lost, although the engine plays the signal. -/
theorem session_completes_signal :
    ∃ s', Reaches (linkStep realLibs) (unbroken realLibs) (.ok (Ends.init bareDevice)) (.ok s')
      ∧ s'.host.results = [.ok [], .error .timeout, .ok [0, 0x4F, 0x6A, 0x3C, 0, 0, 0, 0]]
      ∧ s'.board.device.engineActive = true := by
  obtain ⟨s', hleads, _, _, hresults, hdevice⟩ :=
    session_completes realLibs_lawful someCommands_plain (idle_init bareDevice)
  refine ⟨s', hleads, ?_, ?_⟩
  · rw [hresults]
    decide +kernel
  · rw [hdevice]
    decide +kernel

theorem link_sound_signal :
    ∃ es s, run (linkStep realLibs) (.ok (Ends.init bareDevice)) es = .ok s
      ∧ s.host.calls.length = 3 ∧ s.host.reader.recognised.Sublist s.board.transmit.sent := by
  obtain ⟨s', ⟨es, hgood, hs'⟩, _, hlength, _⟩ :=
    leads_session realLibs_lawful someCommands_plain (idle_init bareDevice)
  obtain ⟨s, hs, _, _, _, _, _, hrec, _⟩ := link_sound realLibs_lawful bareDevice hgood
  obtain rfl : s = s' := Except.ok.inj (hs.symm.trans hs')
  exact ⟨es, s, hs, hlength, hrec⟩

/-- The one call of a session gets the answer to its request. -/
theorem own_answer_switch :
    ∃ (s : Ends) (c : Pending) (reply : Packet), s.host.calls = [c]
      ∧ (s.board.answered.map Prod.fst).count c.request = 1
      ∧ (c.request, reply) ∈ s.board.answered ∧ .ok [] = resultOf reply := by
  obtain ⟨s, c, ⟨es, hgood, hs⟩, _, _, hcalls, _, hawaits, hreturned, _⟩ :=
    leads_exchange realLibs_lawful (idle_init bareDevice)
      (p := { type := 0x08, id := 1, payload := [0x01] }) rfl (by decide) (by decide)
  have hresult : (lineTransact realLibs (Ends.init bareDevice).board.device 1 0x08 [0x01]).1
      = .ok [] := by
    decide +kernel
  have hphase : c.phase = .returned (.ok []) := by
    rw [hresult] at hreturned
    exact Pending.phase_of_ok hreturned
  have hcalls : s.host.calls = [c] := hcalls
  obtain ⟨hcount, reply, hmem, _, hreply⟩ := own_answer realLibs_lawful bareDevice hgood hs
    (by rw [hcalls]; exact Nat.le_of_ble_eq_true rfl) (n := 0) (by rw [hcalls]; rfl) hawaits hphase rfl
  exact ⟨s, c, reply, hcalls, hcount, hmem, hreply⟩

end MiniHF.Link
