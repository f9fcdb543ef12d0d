import MiniHF.Host.Client

/-!
# Whose reply a call consumes

The map of responses knows ids only, so a call gets its own reply as long as no
other reply lies under its id while it polls. There are two ways to break this,
and `keepsOwn` rules out both: a call writes its frame while an old reply lies
under its id, or the reader stores a reply to one call while another with the same
id is waiting. As the ids are those of the calls counted modulo 2^16, neither
happens in the first 65536 calls.
-/

namespace MiniHF.Host

open Runs

/-- A reply decided the result. -/
def CallResult.answered : CallResult → Bool
  | .ok _ => true
  | .nack => true
  | .timeout => false
  | .portClosed => false
  | .io => false

/-- If call `n` returned a reply, it is the one the device sent to its own request. -/
def OwnReply (n : Nat) (c : Call) : Prop :=
  ∀ result, c.phase = .returned result → result.answered = true →
    ∃ r, c.consumed = some r ∧ r.answers = n ∧ result = resultOf r.pkt

/-- Every `transact` that returned a reply returned its own. -/
def OwnReplies (s : Client) : Prop :=
  ∀ (n : Nat) (c : Call), s.calls[n]? = some c → c.awaits = true → OwnReply n c

/--
No reply gets under the id of another call that polls: a `transact` that writes its
frame finds nothing under its id, and the reader stores a reply only if no other
call with that id is waiting.
-/
def keepsOwn (s : Client) : ClientEvent → Prop
  | .write n ok =>
      ∀ c, s.calls[n]? = some c → c.phase = .allocated → c.awaits = true → ok = true →
        s.port.isSome = true → s.responses c.request.id = none
  | .store k =>
      ∀ r, s.inFlight[k]? = some r → r.pkt.type ≠ debugMsgCmd →
        ∀ (n : Nat) (c : Call), s.calls[n]? = some c → c.phase = .waiting →
          c.request.id = r.pkt.id → r.answers = n
  | _ => True

/-- The reply answers a request that was written, and carries its id. -/
def Answers (s : Client) (r : Reply) : Prop :=
  ∃ c, s.calls[r.answers]? = some c ∧ c.sent = true ∧ c.request.id = r.pkt.id

/-- What holds of every client, whoever gets which reply. -/
structure ClientInv (s : Client) : Prop where
  /-- Ids are handed out in order, from 1 on. -/
  next : s.nextId = UInt16.ofNat (s.calls.length + 1)
  ids : ∀ (n : Nat) (c : Call), s.calls[n]? = some c → c.request.id = UInt16.ofNat (n + 1)
  /-- A call that has only taken its id has written nothing. -/
  unsent : ∀ (n : Nat) (c : Call), s.calls[n]? = some c → c.phase = .allocated → c.sent = false
  /-- Only a `transact` polls. -/
  awaiting : ∀ (n : Nat) (c : Call), s.calls[n]? = some c → c.phase = .waiting → c.awaits = true
  flight : ∀ r ∈ s.inFlight, Answers s r
  /-- What is stored lies under its own id. -/
  stored : ∀ id r, s.responses id = some r → r.pkt.id = id ∧ Answers s r

/-- A call that has not written its frame has no reply. -/
theorem ClientInv.unanswered {s : Client} {n : Nat} {c : Call} (h : ClientInv s)
    (hc : s.calls[n]? = some c) (hal : c.phase = .allocated) {r : Reply} (hr : Answers s r) :
    r.answers ≠ n := by
  intro hans
  obtain ⟨c₁, hc₁, hsent, _⟩ := hr
  rw [hans, hc] at hc₁
  rw [← Option.some.inj hc₁, h.unsent n c hc hal] at hsent
  cases hsent

theorem calls_set {s : Client} {n : Nat} {c : Call} (hc : s.calls[n]? = some c) (c' : Call)
    (j : Nat) : (s.setCall n c').calls[j]? = if j = n then some c' else s.calls[j]? := by
  have hlt := (List.getElem?_eq_some_iff.mp hc).1
  by_cases hj : j = n
  · subst hj
    rw [if_pos rfl, Client.setCall, List.getElem?_set_self hlt]
  · rw [if_neg hj, Client.setCall, List.getElem?_set_ne (fun h => hj h.symm)]

theorem calls_set_self {s : Client} {n : Nat} {c : Call} (hc : s.calls[n]? = some c) (c' : Call) :
    (s.setCall n c').calls[n]? = some c' := by
  rw [calls_set hc, if_pos rfl]

theorem Answers.setCall {s : Client} {n : Nat} {c c' : Call} {r : Reply} (h : Answers s r)
    (hc : s.calls[n]? = some c) (hreq : c'.request = c.request)
    (hsent : c.sent = true → c'.sent = true) : Answers (s.setCall n c') r := by
  obtain ⟨c₁, hc₁, hs, hid⟩ := h
  by_cases hn : r.answers = n
  · have hsame : c = c₁ := Option.some.inj (hc.symm.trans (hn ▸ hc₁))
    subst hsame
    exact ⟨c', by rw [calls_set hc, if_pos hn], hsent hs, by rw [hreq]; exact hid⟩
  · exact ⟨c₁, by rw [calls_set hc, if_neg hn]; exact hc₁, hs, hid⟩

/-- A call moves on. -/
theorem ClientInv.setCall {s : Client} {n : Nat} {c : Call} (h : ClientInv s)
    (hc : s.calls[n]? = some c) (c' : Call) (hreq : c'.request = c.request)
    (hsent : c.sent = true → c'.sent = true) (hphase : c'.phase ≠ .allocated)
    (hawaits : c'.phase = .waiting → c'.awaits = true) : ClientInv (s.setCall n c') where
  next := by
    rw [Client.setCall, List.length_set]
    exact h.next
  ids j c₁ hj := by
    rw [calls_set hc] at hj
    split at hj
    · rename_i hjn
      rw [← Option.some.inj hj, hreq, hjn]
      exact h.ids n c hc
    · exact h.ids j c₁ hj
  unsent j c₁ hj hal := by
    rw [calls_set hc] at hj
    split at hj
    · rw [← Option.some.inj hj] at hal
      exact absurd hal hphase
    · exact h.unsent j c₁ hj hal
  awaiting j c₁ hj hw := by
    rw [calls_set hc] at hj
    split at hj
    · rw [← Option.some.inj hj] at hw ⊢
      exact hawaits hw
    · exact h.awaiting j c₁ hj hw
  flight r hr := (h.flight r hr).setCall hc hreq hsent
  stored id r hr := ⟨(h.stored id r hr).1, (h.stored id r hr).2.setCall hc hreq hsent⟩

/-- Responses may go, and stored ones were on the line. -/
theorem ClientInv.responses {s : Client} (h : ClientInv s) {port : Option (List Packet)}
    {responses : UInt16 → Option Reply} {inFlight : List Reply}
    (hflight : ∀ r ∈ inFlight, Answers s r)
    (hstored : ∀ id r, responses id = some r → r.pkt.id = id ∧ Answers s r) :
    ClientInv { s with port, responses, inFlight } :=
  ⟨h.next, h.ids, h.unsent, h.awaiting, hflight, hstored⟩

/-- A call of the longer list is an old one, or the new one. -/
theorem call_of_append {cs : List Call} {c c' : Call} {n : Nat} (h : (cs ++ [c'])[n]? = some c) :
    cs[n]? = some c ∨ n = cs.length ∧ c = c' := by
  rw [List.getElem?_append] at h
  split at h
  · exact Or.inl h
  · rename_i hlt
    have hlast := (List.getElem?_eq_some_iff.mp h).1
    rw [List.length_singleton] at hlast
    have hzero : n - cs.length = 0 := by omega
    rw [hzero, List.getElem?_cons_zero] at h
    exact Or.inr ⟨by omega, (Option.some.inj h).symm⟩

theorem Answers.append {s : Client} {r : Reply} (h : Answers s r) (nextId : UInt16) (c' : Call) :
    Answers { s with nextId, calls := s.calls ++ [c'] } r := by
  obtain ⟨c, hc, hs, hid⟩ := h
  refine ⟨c, ?_, hs, hid⟩
  rw [← hc]
  exact List.getElem?_append_left (List.getElem?_eq_some_iff.mp hc).1

/-- A call takes its id. -/
theorem ClientInv.append {s : Client} (h : ClientInv s) {c' : Call}
    (hid : c'.request.id = s.nextId) (hphase : c'.phase = .allocated) (hsent : c'.sent = false) :
    ClientInv { s with nextId := s.nextId + 1, calls := s.calls ++ [c'] } where
  next := by
    dsimp only
    rw [h.next, List.length_append, List.length_singleton, UInt16.ofNat_add (s.calls.length + 1)]
    rfl
  ids j c hj := by
    rcases call_of_append hj with hj | ⟨hlast, rfl⟩
    · exact h.ids j c hj
    · rw [hlast, hid]
      exact h.next
  unsent j c hj hal := by
    rcases call_of_append hj with hj | ⟨_, rfl⟩
    · exact h.unsent j c hj hal
    · exact hsent
  awaiting j c hj hw := by
    rcases call_of_append hj with hj | ⟨_, rfl⟩
    · exact h.awaiting j c hj hw
    · rw [hphase] at hw
      cases hw
  flight r hr := (h.flight r hr).append _ _
  stored id r hr := ⟨(h.stored id r hr).1, (h.stored id r hr).2.append _ _⟩

/-- **Storing a reply is what the reader does with its packet.** -/
theorem store_route {s : Client} {rd : Reader} {k : Nat} {r : Reply} (hr : s.inFlight[k]? = some r)
    (hmap : ∀ id, rd.responses id = (s.responses id).map Reply.pkt) (id : UInt16) :
    (rd.route r.pkt).responses id = ((clientStep s (.store k)).responses id).map Reply.pkt := by
  dsimp only [clientStep]
  rw [hr, Reader.route]
  dsimp only
  by_cases hdebug : r.pkt.type = debugMsgCmd
  · rw [if_pos hdebug, if_pos hdebug]
    exact hmap id
  · rw [if_neg hdebug, if_neg hdebug]
    dsimp only [insertResponse]
    by_cases hid : id = r.pkt.id
    · rw [if_pos hid, if_pos hid]
      rfl
    · rw [if_neg hid, if_neg hid]
      exact hmap id

/-- What holds as long as no reply gets under the id of another call that polls. -/
structure OwnInv (s : Client) : Prop where
  base : ClientInv s
  replies : OwnReplies s
  /-- What lies under the id of a waiting call is its own reply. -/
  entries : ∀ (n : Nat) (c : Call), s.calls[n]? = some c → c.phase = .waiting →
    ∀ r, s.responses c.request.id = some r → r.answers = n

theorem ownInv_init : OwnInv Client.init where
  base := by
    constructor
    case next => rfl
    case flight => intro r hr; cases hr
    case stored => intro id r hr; cases hr
    all_goals intro n c hc; cases hc
  replies n c hc := by cases hc
  entries n c hc := by cases hc

theorem OwnInv.setCall {s : Client} {n : Nat} {c : Call} (h : OwnInv s)
    (hc : s.calls[n]? = some c) (c' : Call) (hreq : c'.request = c.request)
    (hsent : c.sent = true → c'.sent = true) (hphase : c'.phase ≠ .allocated)
    (hawaits : c'.phase = .waiting → c'.awaits = true) (hown : c'.awaits = true → OwnReply n c')
    (hentry : c'.phase = .waiting → ∀ r, s.responses c.request.id = some r → r.answers = n) :
    OwnInv (s.setCall n c') where
  base := h.base.setCall hc c' hreq hsent hphase hawaits
  replies j c₁ hj haw := by
    rw [calls_set hc] at hj
    split at hj
    · rename_i hjn
      rw [← Option.some.inj hj] at haw ⊢
      rw [hjn]
      exact hown haw
    · exact h.replies j c₁ hj haw
  entries j c₁ hj hw r hr := by
    rw [calls_set hc] at hj
    split at hj
    · rename_i hjn
      rw [← Option.some.inj hj] at hw hr
      rw [hreq] at hr
      rw [hjn]
      exact hentry hw r hr
    · exact h.entries j c₁ hj hw r hr

theorem OwnInv.responses {s : Client} (h : OwnInv s) {port : Option (List Packet)}
    {responses : UInt16 → Option Reply} {inFlight : List Reply}
    (hflight : ∀ r ∈ inFlight, Answers s r)
    (hstored : ∀ id r, responses id = some r → r.pkt.id = id ∧ Answers s r)
    (hentries : ∀ (n : Nat) (c : Call), s.calls[n]? = some c → c.phase = .waiting →
      ∀ r, responses c.request.id = some r → r.answers = n) :
    OwnInv { s with port, responses, inFlight } :=
  ⟨h.base.responses hflight hstored, h.replies, hentries⟩

/-- Entries may be removed from the map. -/
theorem OwnInv.removed {s : Client} (h : OwnInv s) {port : Option (List Packet)}
    {responses : UInt16 → Option Reply}
    (hsub : ∀ id r, responses id = some r → s.responses id = some r) :
    OwnInv { s with port, responses } :=
  h.responses h.base.flight (fun id r hr => h.base.stored id r (hsub id r hr))
    fun n c hc hw r hr => h.entries n c hc hw r (hsub _ r hr)

theorem OwnInv.begin {s : Client} (h : OwnInv s) (cmdId : UInt8) (payload : List UInt8)
    (awaits : Bool) : OwnInv (s.begin cmdId payload awaits) := by
  unfold Client.begin
  split
  · exact h
  · refine ⟨h.base.append rfl rfl rfl, ?_, ?_⟩
    · intro n c hc haw
      rcases call_of_append hc with hc | ⟨_, rfl⟩
      · exact h.replies n c hc haw
      · intro result hres
        cases hres
    · intro n c hc hw r hr
      rcases call_of_append hc with hc | ⟨_, rfl⟩
      · exact h.entries n c hc hw r hr
      · cases hw

/-- Writing the frame. -/
theorem OwnInv.write {s : Client} {n : Nat} {c : Call} (h : OwnInv s)
    (hc : s.calls[n]? = some c) (ok : Bool)
    (hempty : c.awaits = true → ok = true → s.port.isSome = true →
      s.responses c.request.id = none) : OwnInv (s.write n c ok) := by
  unfold Client.write
  split
  · -- the port is closed
    refine h.setCall hc _ rfl id (by simp) (by simp) (fun _ => ?_) (by simp)
    intro result hres hans
    cases hres
    cases hans
  · rename_i written hport
    split
    · -- the frame is written, and a `transact` starts to poll
      rename_i hok
      refine OwnInv.removed (h.setCall hc { c with
        phase := if c.awaits then .waiting else .returned (.ok []), sent := true }
        rfl (fun _ => rfl) ?_ ?_ ?_ ?_) (fun _ _ hr => hr)
      · dsimp only
        split <;> simp
      · dsimp only
        split
        · exact fun _ => ‹_›
        · simp
      · intro haw result hres
        dsimp only at haw hres
        rw [if_pos haw] at hres
        cases hres
      · dsimp only
        split
        · rename_i haw
          intro _ r hr
          rw [hempty haw hok (by rw [hport]; rfl)] at hr
          cases hr
        · simp
    · -- the write failed
      refine h.setCall hc _ rfl (fun _ => rfl) (by simp) (by simp) (fun _ => ?_) (by simp)
      intro result hres hans
      cases hres
      cases hans

/-- Looking into the map: what a waiting call finds is its own reply. -/
theorem OwnInv.poll {s : Client} {n : Nat} {c : Call} (h : OwnInv s)
    (hc : s.calls[n]? = some c) (hw : c.phase = .waiting) : OwnInv (s.poll n c) := by
  unfold Client.poll
  split
  · rename_i r hr
    refine OwnInv.removed (h.setCall hc { c with
      phase := .returned (resultOf r.pkt), consumed := some r }
      rfl id (by simp) (by simp) (fun _ => ?_) (by simp)) ?_
    · intro result hres _
      exact ⟨r, rfl, h.entries n c hc hw r hr, (Phase.returned.inj hres).symm⟩
    · intro id r' hr'
      split at hr'
      · cases hr'
      · exact hr'
  · exact h

/-- Storing a reply. -/
theorem OwnInv.store {s : Client} {k : Nat} {r : Reply} (h : OwnInv s)
    (hr : s.inFlight[k]? = some r)
    (hown : ∀ (n : Nat) (c : Call), s.calls[n]? = some c → c.phase = .waiting →
      c.request.id = r.pkt.id → r.answers = n) :
    OwnInv { s with
      inFlight := s.inFlight.eraseIdx k, responses := insertResponse s.responses r.pkt.id r } := by
  refine h.responses (fun r' hr' => h.base.flight r' (List.mem_of_mem_eraseIdx hr')) ?_ ?_
  · intro id r' hr'
    unfold insertResponse at hr'
    split at hr'
    · rename_i hid
      rw [← Option.some.inj hr']
      exact ⟨hid.symm, h.base.flight r (List.mem_of_getElem? hr)⟩
    · exact h.base.stored id r' hr'
  · intro n c hc hw r' hr'
    unfold insertResponse at hr'
    split at hr'
    · rename_i hid
      rw [← Option.some.inj hr']
      exact hown n c hc hw hid
    · exact h.entries n c hc hw r' hr'

/-- **A step that keeps replies and ids apart keeps every call to its own reply.** -/
theorem ownInv_step (s : Client) (e : ClientEvent) (h : OwnInv s) (hgood : keepsOwn s e) :
    OwnInv (clientStep s e) := by
  cases e with
  | begin cmdId payload awaits => exact h.begin cmdId payload awaits
  | write n ok =>
      dsimp only [clientStep]
      split
      · rename_i c hc
        split
        · rename_i hal
          exact h.write hc ok (hgood c hc hal)
        · exact h
      · exact h
  | poll n =>
      dsimp only [clientStep]
      split
      · rename_i c hc
        split
        · rename_i hw
          exact h.poll hc hw
        · exact h
      · exact h
  | timeout n =>
      dsimp only [clientStep]
      split
      · rename_i c hc
        split
        · refine h.setCall hc _ rfl id (by simp) (by simp) (fun _ => ?_) (by simp)
          intro result hres hans
          cases hres
          cases hans
        · exact h
      · exact h
  | reply n ptype payload =>
      dsimp only [clientStep]
      split
      · rename_i c hc
        split
        · rename_i hsent
          rw [Bool.and_eq_true] at hsent
          refine h.responses (fun r hr => ?_) h.base.stored h.entries
          rcases List.mem_append.mp hr with hr | hr
          · exact h.base.flight r hr
          · rw [List.mem_singleton.mp hr]
            exact ⟨c, hc, hsent.1, rfl⟩
        · exact h
      · exact h
  | store k =>
      dsimp only [clientStep]
      split
      · rename_i r hr
        split
        · -- a debug message is logged and goes
          exact h.responses (fun r' hr' => h.base.flight r' (List.mem_of_mem_eraseIdx hr'))
            h.base.stored h.entries
        · rename_i hdebug
          exact h.store hr (hgood r hr hdebug)
      · exact h
  | close => exact h.removed fun _ _ hr => hr
  | clear =>
      dsimp only [clientStep]
      split
      · exact h.removed fun _ _ hr => by cases hr
      · exact h

/-! ## The other direction -/

theorem step_write {s : Client} {n : Nat} {c : Call} (hc : s.calls[n]? = some c)
    (hal : c.phase = .allocated) (ok : Bool) : clientStep s (.write n ok) = s.write n c ok := by
  simp only [clientStep, hc, if_pos hal]

theorem step_poll {s : Client} {n : Nat} {c : Call} (hc : s.calls[n]? = some c)
    (hw : c.phase = .waiting) : clientStep s (.poll n) = s.poll n c := by
  simp only [clientStep, hc, if_pos hw]

/-- A `transact` whose frame is written starts to poll. -/
theorem write_transact {s : Client} {n : Nat} {c : Call} {written : List Packet}
    (hport : s.port = some written) (haw : c.awaits = true) :
    s.write n c true = { s.setCall n { c with phase := .waiting, sent := true } with
      port := some (written ++ [c.request]) } := by
  simp only [Client.write, hport, if_pos haw, if_true]

/-- A waiting call that finds the reply to another request returns it. -/
theorem poll_foreign {s : Client} {n : Nat} {c : Call} {r : Reply} (hc : s.calls[n]? = some c)
    (hw : c.phase = .waiting) (haw : c.awaits = true) (hr : s.responses c.request.id = some r)
    (hne : r.answers ≠ n) : ¬ OwnReplies (clientStep s (.poll n)) := by
  intro hown
  rw [step_poll hc hw, Client.poll, hr] at hown
  obtain ⟨r', hr', hans, _⟩ := hown n _ (calls_set_self hc _) haw (resultOf r.pkt) rfl
    (by unfold resultOf; split <;> rfl)
  exact hne ((congrArg Reply.answers (Option.some.inj hr')).trans hans)

/-- A `transact` that writes its frame over the reply to another request returns that. -/
theorem write_foreign {s : Client} {n : Nat} {c : Call} {r : Reply} (hc : s.calls[n]? = some c)
    (hal : c.phase = .allocated) (haw : c.awaits = true) (hport : s.port.isSome = true)
    (hr : s.responses c.request.id = some r) (hne : r.answers ≠ n) :
    ¬ OwnReplies (clientStep (clientStep s (.write n true)) (.poll n)) := by
  obtain ⟨written, hwritten⟩ := Option.isSome_iff_exists.mp hport
  rw [step_write hc hal, write_transact hwritten haw]
  exact poll_foreign (calls_set_self hc _) rfl haw hr hne

/-- **After any other step, a poll at once returns the reply to another request.** -/
theorem foreign_poll {s : Client} {e : ClientEvent} (h : OwnInv s) (hbad : ¬ keepsOwn s e) :
    ∃ n, ¬ OwnReplies (clientStep (clientStep s e) (.poll n)) := by
  cases e with
  | write n ok =>
      simp only [keepsOwn, Classical.not_forall] at hbad
      obtain ⟨c, hc, hal, haw, rfl, hport, hentry⟩ := hbad
      obtain ⟨r, hr⟩ := Option.ne_none_iff_exists'.mp hentry
      have hne := h.base.unanswered hc hal (h.base.stored _ r hr).2
      exact ⟨n, write_foreign hc hal haw hport hr hne⟩
  | store k =>
      simp only [keepsOwn, Classical.not_forall] at hbad
      obtain ⟨r, hr, hdebug, n, c, hc, hw, hid, hne⟩ := hbad
      have hstep : clientStep s (.store k) = { s with
          inFlight := s.inFlight.eraseIdx k
          responses := insertResponse s.responses r.pkt.id r } := by
        dsimp only [clientStep]
        rw [hr]
        exact if_neg hdebug
      rw [hstep]
      refine ⟨n, poll_foreign (r := r) hc hw (h.base.awaiting n c hc hw) ?_ hne⟩
      exact if_pos hid
  | begin cmdId payload awaits => exact absurd trivial hbad
  | poll n => exact absurd trivial hbad
  | timeout n => exact absurd trivial hbad
  | reply n ptype payload => exact absurd trivial hbad
  | close => exact absurd trivial hbad
  | clear => exact absurd trivial hbad

/-! ## As long as the ids do not wrap -/

theorem id_unique {s : Client} (h : ClientInv s) (hfew : s.calls.length ≤ 65536) {n m : Nat}
    {c c' : Call} (hn : s.calls[n]? = some c) (hm : s.calls[m]? = some c')
    (hid : c.request.id = c'.request.id) : n = m := by
  have hnlt := (List.getElem?_eq_some_iff.mp hn).1
  have hmlt := (List.getElem?_eq_some_iff.mp hm).1
  rw [h.ids n c hn, h.ids m c' hm] at hid
  have hnat := congrArg UInt16.toNat hid
  simp only [UInt16.toNat_ofNat'] at hnat
  omega

/-- Among at most 65536 calls an id belongs to one, so every step keeps them apart. -/
theorem keepsOwn_of_few_calls {s : Client} (h : OwnInv s) (hfew : s.calls.length ≤ 65536)
    (e : ClientEvent) : keepsOwn s e := by
  cases e with
  | write n ok =>
      intro c hc hal _ _ _
      rcases hr : s.responses c.request.id with _ | r
      · rfl
      · -- the reply would answer this very call, which has not written its frame
        obtain ⟨hid, hans⟩ := h.base.stored _ r hr
        have hne := h.base.unanswered hc hal hans
        obtain ⟨c₁, hc₁, _, hid₁⟩ := hans
        exact absurd (id_unique h.base hfew hc₁ hc (hid₁.trans hid)) hne
  | store k =>
      intro r hr _ n c hc _ hid
      obtain ⟨c₁, hc₁, _, hid₁⟩ := h.base.flight r (List.mem_of_getElem? hr)
      exact id_unique h.base hfew hc₁ hc (hid₁.trans hid.symm)
  | begin cmdId payload awaits => trivial
  | poll n => trivial
  | timeout n => trivial
  | reply n ptype payload => trivial
  | close => trivial
  | clear => trivial

/-- No call is forgotten. -/
theorem calls_length_step (s : Client) (e : ClientEvent) :
    s.calls.length ≤ (clientStep s e).calls.length := by
  have hset : ∀ n c, (s.setCall n c).calls.length = s.calls.length := fun n c => List.length_set
  cases e with
  | begin cmdId payload awaits =>
      dsimp only [clientStep, Client.begin]
      split
      · exact Nat.le_refl _
      · simp
  | write n ok =>
      dsimp only [clientStep, Client.write]
      repeat' split
      all_goals simp [hset]
  | poll n =>
      dsimp only [clientStep, Client.poll]
      repeat' split
      all_goals simp [hset]
  | timeout n =>
      dsimp only [clientStep]
      repeat' split
      all_goals simp [hset]
  | reply n ptype payload =>
      dsimp only [clientStep]
      repeat' split
      all_goals simp
  | store k =>
      dsimp only [clientStep]
      repeat' split
      all_goals simp
  | close => exact Nat.le_refl _
  | clear =>
      dsimp only [clientStep]
      split <;> exact Nat.le_refl _

/-- The first 65536 calls meet the condition. -/
theorem along_of_few_calls {s : Client} (h : OwnInv s) {es : List ClientEvent}
    (hfew : (run clientStep s es).calls.length ≤ 65536) : Along clientStep keepsOwn s es := by
  induction es generalizing s with
  | nil => trivial
  | cons e es ih =>
      have hmono := run_invariant (J := fun s' => s.calls.length ≤ s'.calls.length)
        (fun s' e' hs' => Nat.le_trans hs' (calls_length_step s' e')) (Nat.le_refl _) (e :: es)
      have hgood := keepsOwn_of_few_calls h (Nat.le_trans hmono hfew) e
      exact ⟨hgood, ih (ownInv_step s e h hgood) hfew⟩

/-! ## Whole runs -/

/--
**Every call that returns a reply returns its own, as long as no reply gets under the
id of another call that polls.** In any other run one more poll, right after the
first step that breaks this, returns the reply to another request.
-/
theorem own_replies (es : List ClientEvent) :
    (Along clientStep keepsOwn Client.init es → Throughout clientStep OwnReplies Client.init es) ∧
    (¬ Along clientStep keepsOwn Client.init es → ∃ es₁ es₂ n, es = es₁ ++ es₂ ∧
      ¬ OwnReplies (run clientStep Client.init (es₁ ++ [.poll n]))) := by
  refine ⟨throughout_of_along ownInv_step (fun s hs => hs.replies) ownInv_init, ?_⟩
  intro hbad
  obtain ⟨es₁, e, es₂, rfl, hinv, hbad⟩ := first_bad ownInv_step ownInv_init hbad
  obtain ⟨n, hforeign⟩ := foreign_poll hinv hbad
  refine ⟨es₁ ++ [e], es₂, n, by rw [List.append_assoc]; rfl, ?_⟩
  rw [run_append, run_append]
  exact hforeign

/-- A late reply to a call that timed out is harmless as long as the ids do not wrap. -/
theorem own_replies_late :
    Throughout clientStep OwnReplies Client.init
      [.begin 0x02 [] true, .write 0 true, .timeout 0, .begin 0x04 [] true, .write 1 true,
        .reply 0 0xFF [], .store 0, .reply 1 0xFF [], .store 0, .poll 1] := by
  exact (own_replies _).1 (along_of_few_calls ownInv_init (by decide))

/-- `n` calls of `transact`, from call `first` on, that no reply reaches in time. -/
def timedOutCalls (first n : Nat) : List ClientEvent :=
  (List.range' first n).flatMap fun i => [.begin 0x02 [] true, .write i true, .timeout i]

theorem begin_call (s : Client) : (s.begin 0x02 [] true).calls[s.calls.length]? = some
    { request := { type := 0x02, id := s.nextId, payload := [] }, awaits := true
      phase := .allocated, sent := false, consumed := none } :=
  List.getElem?_concat_length ..

/-- A call that times out takes an id and leaves the map alone. -/
theorem timed_out_call (s : Client) (hport : s.port.isSome = true) :
    let s' := run clientStep s
      [.begin 0x02 [] true, .write s.calls.length true, .timeout s.calls.length]
    s'.nextId = s.nextId + 1 ∧ s'.calls.length = s.calls.length + 1 ∧
      s'.responses = s.responses ∧ s'.port.isSome = true := by
  obtain ⟨written, hwritten⟩ := Option.isSome_iff_exists.mp hport
  simp [clientStep, Client.begin, Client.write, Client.setCall, hwritten]

theorem timed_out_calls (n : Nat) {s : Client} (hport : s.port.isSome = true) :
    let s' := run clientStep s (timedOutCalls s.calls.length n)
    s'.nextId = s.nextId + UInt16.ofNat n ∧ s'.calls.length = s.calls.length + n ∧
      s'.responses = s.responses ∧ s'.port.isSome = true := by
  induction n generalizing s with
  | zero => exact ⟨(UInt16.add_zero _).symm, rfl, rfl, hport⟩
  | succ n ih =>
      have hone := timed_out_call s hport
      rw [timedOutCalls, List.range'_succ, List.flatMap_cons, run_append]
      dsimp only at hone ⊢
      generalize run clientStep s [.begin 0x02 [] true, .write s.calls.length true,
        .timeout s.calls.length] = s₁ at hone ⊢
      obtain ⟨hid, hlen, hresp, hport₁⟩ := hone
      obtain ⟨hids, hlens, hresps, hports⟩ := ih hport₁
      rw [hlen] at hids hlens hresps hports
      refine ⟨?_, ?_, hresps.trans hresp, hports⟩
      · refine hids.trans ?_
        rw [hid, UInt16.ofNat_add, UInt16.add_assoc, UInt16.add_comm 1]
        rfl
      · refine hlens.trans ?_
        omega

/-- A call that takes the id of a reply to another request returns that reply. -/
theorem stale_call {s : Client} {r : Reply} (hport : s.port.isSome = true)
    (hr : s.responses s.nextId = some r) (hne : r.answers ≠ s.calls.length) :
    ¬ OwnReplies (run clientStep s
      [.begin 0x02 [] true, .write s.calls.length true, .poll s.calls.length]) :=
  write_foreign (s := s.begin 0x02 [] true) (begin_call s) rfl rfl hport hr hne

/-- **The reply to a call that timed out goes to the call 65536 calls later.** -/
theorem own_replies_wrapped :
    ¬ Throughout clientStep OwnReplies Client.init
      ([.begin 0x02 [] true, .write 0 true, .timeout 0, .reply 0 0xFF [], .store 0] ++
        timedOutCalls 1 65535 ++
        [.begin 0x02 [] true, .write 65536 true, .poll 65536]) := by
  intro h
  have hlast := throughout_last h
  rw [run_append, run_append] at hlast
  have hone : ∃ s, run clientStep Client.init
      [.begin 0x02 [] true, .write 0 true, .timeout 0, .reply 0 0xFF [], .store 0] = s ∧
      s.nextId = 2 ∧ s.calls.length = 1 ∧ s.port.isSome = true ∧
      s.responses 1 = some { answers := 0, pkt := { type := 0xFF, id := 1, payload := [] } } :=
    ⟨_, rfl, rfl, rfl, rfl, rfl⟩
  obtain ⟨s, hs, hid, hlen, hport, hentry⟩ := hone
  rw [hs] at hlast
  obtain ⟨hids, hlens, hresps, hports⟩ := timed_out_calls 65535 hport
  rw [hlen] at hids hlens hresps hports
  have hstale := stale_call hports (by rw [hids, hid, hresps]; exact hentry)
    (by rw [hlens]; decide)
  rw [hlens] at hstale
  exact hstale hlast

end MiniHF.Host
