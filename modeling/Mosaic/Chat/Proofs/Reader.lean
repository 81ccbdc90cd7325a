/-
A reader of the event stream, step by step.

# What it sees

Logs only grow (`Effect.logged`), and in a reachable store the two reads
of a reader come back with the request as it is and the events past the
cursor, whole (`SiteInv.assertRequest_ok`, `SiteInv.streamEvents_ok`).

# What it does

`Reading` ties a reader to the log: what it has yielded, and what it is
about to yield, is the log from its cursor on. Each kind of step has its
own lemma (`step_read`, `step_yield`, `step_check`). A reader can lose its
place in one way only: it reads no events, the request ends before it
reads the request, and it takes the new last number for a hole in the log.
`Seamless` excludes this, and an event the public contract refuses.
-/
import Mosaic.Chat.Proofs.Settleable
import Mosaic.Chat.Stream

namespace Mosaic.Chat

open Lib

variable {cfg : Config} {who : Caller} {s s' : Store} {x : Site} {id : Nat}
  {r r' : InferenceRequest} {book : Catalog.PriceBook} {initial : Billing.Db}
  {a : StreamAsk} {p p' : Reader} {y : Audience}

-- ================================================================= logs

/-- The request is still there and its log has only grown. -/
def Logged (id : Nat) (r : InferenceRequest) (log : List StreamEvent) (s : Store) : Prop :=
  log <+: s.log id ∧ ∃ r', s.requests.get id = some r' ∧ SameRequest r r'

theorem SameRequest.trans {r r' r'' : InferenceRequest} (h : SameRequest r r')
    (h' : SameRequest r' r'') : SameRequest r r'' :=
  ⟨h'.tenantId.trans h.tenantId, h'.requestId.trans h.requestId,
    h'.conversationId.trans h.conversationId, h'.messageId.trans h.messageId,
    h'.reservation.trans h.reservation, h'.price.trans h.price, h'.actor.trans h.actor⟩

/-- An event written to some request's log extends that log only. -/
theorem log_insert_grows {e : StreamEvent} (h : s'.events = s.events.insert e) :
    s.log id <+: s'.log id := by
  by_cases he : e.inferenceRequestId = id
  · rw [log_insert_self h he]
    exact List.prefix_append _ _
  · rw [log_insert_other h he]

/-- Every request has its own log. -/
theorem Logged.now (hr : s.requests.get id = some r) : Logged id r (s.log id) s :=
  ⟨List.prefix_rfl, r, hr, ⟨rfl, rfl, rfl, rfl, rfl, rfl, rfl⟩⟩

theorem Logged.effect {log : List StreamEvent} (h : Logged id r log s)
    (heff : Effect who s s') : Logged id r log s' := by
  obtain ⟨hpre, y, hy, hsame⟩ := h
  have hreplaced : ∀ {j : Nat} {z z' : InferenceRequest},
      Table.Replaced s.requests s'.requests j z z' → SameRequest z z' →
      ∃ r', s'.requests.get id = some r' ∧ SameRequest r r' := by
    intro j z z' hrep hz
    by_cases hj : id = j
    · subst hj
      obtain rfl := Option.some.inj (hy.symm.trans hrep.old)
      exact ⟨z', hrep.new, hsame.trans hz⟩
    · exact ⟨y, (hrep.other hj).trans hy, hsame⟩
  cases heff with
  | quiet hq => exact ⟨(log_congr hq.events).symm ▸ hpre, y, hq.requests ▸ hy, hsame⟩
  | opened c ho => exact ⟨(log_congr ho.events).symm ▸ hpre, y, ho.requests ▸ hy, hsame⟩
  | accepted cid mid c c' z m e o ha =>
      refine ⟨hpre.trans (log_insert_grows ha.events), y, ?_, hsame⟩
      rw [ha.requests]
      exact Table.get_insert_of_some hy _
  | moved j z z' hm hmove =>
      exact ⟨(log_congr hm.events).symm ▸ hpre, hreplaced hm.requests hm.same⟩
  | delta j z z' m m' e text hd =>
      exact ⟨hpre.trans (log_insert_grows hd.events), hreplaced hd.requests hd.same⟩
  | ended j z z' c c' m m' e he =>
      exact ⟨hpre.trans (log_insert_grows he.events), hreplaced he.requests he.same⟩

/-- Every event names the request whose log it is in. -/
def NamesInv (s : Store) : Prop :=
  ∀ id r, s.requests.get id = some r → ∀ e ∈ s.log id, e.Names r

theorem StreamEvent.Names.same {e : StreamEvent} (h : e.Names r) (hsame : SameRequest r r') :
    e.Names r' :=
  ⟨h.requestId.trans hsame.requestId.symm, h.conversationId.trans hsame.conversationId.symm,
    h.messageId.trans hsame.messageId.symm,
    (fun err he => (h.error err he).trans hsame.requestId.symm), h.started⟩

theorem NamesInv.replaced (h : NamesInv s) {j : Nat} {z z' : InferenceRequest}
    (hrep : Table.Replaced s.requests s'.requests j z z') (hsame : SameRequest z z')
    (hlog : ∀ id, ∀ e ∈ s'.log id, e ∈ s.log id ∨ (id = j ∧ e.Names z)) : NamesInv s' := by
  intro id r hr e he
  rcases hrep.cases hr with ⟨rfl, rfl⟩ | ⟨hne, hr⟩
  · rcases hlog _ e he with hold | ⟨-, hnew⟩
    · exact (h _ z hrep.old e hold).same hsame
    · exact hnew.same hsame
  · rcases hlog _ e he with hold | ⟨hid, -⟩
    · exact h id r hr e hold
    · exact absurd hid hne

theorem mem_log_insert {e e' : StreamEvent} (h : s'.events = s.events.insert e)
    (hmem : e' ∈ s'.log id) : e' ∈ s.log id ∨ (id = e.inferenceRequestId ∧ e' = e) := by
  by_cases he : e.inferenceRequestId = id
  · rw [log_insert_self h he, List.mem_append, List.mem_singleton] at hmem
    exact hmem.imp_right fun h => ⟨he.symm, h⟩
  · rw [log_insert_other h he] at hmem
    exact Or.inl hmem

theorem NamesInv.effect (h : NamesInv s) (hlog : LogInv s) (heff : Effect who s s') :
    NamesInv s' := by
  have hcongr : s'.requests = s.requests → s'.events = s.events → NamesInv s' := by
    intro hreq hev id r hr e he
    rw [log_congr hev] at he
    exact h id r (hreq ▸ hr) e he
  cases heff with
  | quiet hq => exact hcongr hq.requests hq.events
  | opened c ho => exact hcongr ho.requests ho.events
  | accepted cid mid c c' z m e o ha =>
      intro id r hr e' he'
      rw [ha.requests] at hr
      rcases Table.get_insert_cases hr with ⟨rfl, rfl⟩ | hr
      · rcases mem_log_insert ha.events he' with hold | ⟨-, rfl⟩
        · rw [hlog.fresh] at hold
          cases hold
        · exact ha.eventNames
      · rcases mem_log_insert ha.events he' with hold | ⟨hid, -⟩
        · exact h id r hr e' hold
        · have := Table.lt_nextId hr
          rw [hid, ha.eventRequest] at this
          exact absurd this (lt_irrefl _)
  | moved j z z' hm hmove =>
      refine h.replaced hm.requests hm.same fun id e he => Or.inl ?_
      rw [log_congr hm.events] at he
      exact he
  | delta j z z' m m' e text hd =>
      refine h.replaced hd.requests hd.same fun id e' he' => ?_
      refine (mem_log_insert hd.events he').imp_right ?_
      rintro ⟨hid, rfl⟩
      exact ⟨hid.trans hd.eventRequest, hd.eventNames⟩
  | ended j z z' c c' m m' e he =>
      refine h.replaced he.requests he.same fun id e' he' => ?_
      refine (mem_log_insert he.events he').imp_right ?_
      rintro ⟨hid, rfl⟩
      exact ⟨hid.trans he.eventRequest, he.eventNames⟩

-- ============================================================= one step

theorem SiteInv.logged (h : SiteInv cfg initial x) {log : List StreamEvent}
    (hl : Logged id r log x.world.store) (act : SiteAct) :
    Logged id r log (siteStep cfg x act).world.store :=
  (h.storeMove act).carry h.fleet.chat (fun _ heff hl => Logged.effect hl heff) hl

theorem SiteInv.names (h : SiteInv cfg initial x) (hn : NamesInv x.world.store)
    (act : SiteAct) : NamesInv (siteStep cfg x act).world.store :=
  (h.storeMove act).carry h.fleet.chat (fun hinv heff hn => NamesInv.effect hn hinv.log heff) hn

-- ================================================================ reads

/-- The user asks for the request it owns. -/
structure StreamAsk.Asks (a : StreamAsk) (r : InferenceRequest) : Prop where
  tenantId : r.tenantId = a.tenantId
  actor : r.actorUserId = some a.actorUserId
  conversationId : r.conversationId = a.conversationId
  requestId : r.requestId = a.requestId

theorem StreamAsk.Asks.same (h : a.Asks r) (hsame : SameRequest r r') : a.Asks r' :=
  ⟨hsame.tenantId.trans h.tenantId, hsame.actor.trans h.actor,
    hsame.conversationId.trans h.conversationId, hsame.requestId.trans h.requestId⟩

theorem SiteInv.find_request (h : SiteInv cfg initial x)
    (hr : x.world.store.requests.get id = some r) (hask : a.Asks r) :
    x.world.store.requests.find (a.admits x.world.store) = some (id, r) := by
  have hadmits : a.admits x.world.store r = true := by
    obtain ⟨c, hc, htenant, hactor⟩ := h.owner.owner id r hr
    have hcreator : c.createdByUserId = a.actorUserId :=
      Option.some.inj (hactor.symm.trans hask.actor)
    rw [hask.conversationId] at hc
    rw [hask.tenantId] at htenant
    simp [StreamAsk.admits, hask.tenantId, hask.actor, hask.conversationId, hask.requestId,
      hc, htenant, hcreator]
  cases hf : x.world.store.requests.find (a.admits x.world.store) with
  | none =>
      have := Table.find_none hf hr
      rw [hadmits] at this
      cases this
  | some e =>
      obtain ⟨j, z⟩ := e
      obtain ⟨hz, hp⟩ := Table.find_some hf
      simp only [StreamAsk.admits, Bool.and_eq_true, beq_iff_eq] at hp
      have hid : id = j :=
        h.owner.unique id j r z hr hz (hp.1.2.trans hask.requestId.symm)
      subst hid
      obtain rfl := Option.some.inj (hr.symm.trans hz)
      rfl

theorem SiteInv.assertRequest_ok (h : SiteInv cfg initial x)
    (hr : x.world.store.requests.get id = some r) (hask : a.Asks r) :
    assertRequest x.world.store a = .ok (requestRecord id r) := by
  simp only [assertRequest, h.find_request hr hask, orRaise]
  rfl

/-- A read from `k` on returns the rest of the log. -/
theorem SiteInv.streamEvents_ok (h : SiteInv cfg initial x)
    (hr : x.world.store.requests.get id = some r) (hask : a.Asks r) (k : Nat) :
    streamEvents x.world.store a ((k : Int) - 1) = .ok ((x.world.store.log id).drop k) := by
  have hwf := h.fleet.chat.log.wellFormed id r hr
  have hfilter : (x.world.store.log id).filter
      (fun e => e.tenantId == a.tenantId && decide ((k : Int) - 1 < e.sequenceNo))
      = (x.world.store.log id).drop k := by
    rw [← hwf.filter_from k]
    refine List.filter_congr fun e he => ?_
    have htenant := h.fleet.chat.log.tenant id r hr e he
    rw [hask.tenantId] at htenant
    simp only [htenant, beq_self_eq_true, Bool.true_and, decide_eq_decide]
    omega
  have hsorted : ((x.world.store.log id).drop k).Pairwise
      fun a b => a.sequenceNo ≤ b.sequenceNo :=
    hwf.sorted.sublist (List.drop_sublist _ _)
  simp only [streamEvents, h.find_request hr hask, orRaise, eventsAfter]
  show Except.ok (((x.world.store.log id).filter fun e =>
    e.tenantId == a.tenantId && decide ((k : Int) - 1 < e.sequenceNo)).insertionSort _) = _
  rw [hfilter, hsorted.insertionSort_eq]

/-- The service and the repository agree on what is over. -/
theorem ChatInv.streamTerminal_iff (h : ChatInv s) (hr : s.requests.get id = some r) :
    streamTerminal r.status = true ↔ r.status.final = true := by
  rcases h.pointer.status id r hr with hact | hfinal
  · rw [RequestStatus.not_final_of_active hact]
    cases hst : r.status <;> simp_all [RequestStatus.active, streamTerminal]
  · rw [hfinal]
    cases hst : r.status <;> simp_all [RequestStatus.final, streamTerminal]

-- =============================================================== reader

/-- The position of the cursor in the log. -/
def Reader.start (p : Reader) : Nat := (p.ask.normalizedCursor + 1).toNat

/-- What the program counter of a reader says about the log. -/
def ReaderPc.Fits (pc : ReaderPc) (p : Reader) (r : InferenceRequest)
    (log : List StreamEvent) : Prop :=
  match pc with
  | .read => p.terminal = false
  | .yielding rows _ => rows <+: log.drop p.expected.toNat
  | .check _ => p.terminal = false
  | .returned => r.status.final = true ∧ p.expected.toNat = log.length
  | .expired => p.terminal = false
  | .raised _ => False

/-- A reader that has kept its place in the log of request `id`. -/
structure Reading (y : Audience) (id : Nat) (r : InferenceRequest) : Prop where
  request : y.site.world.store.requests.get id = some r
  asks : y.reader.ask.Asks r
  record : y.reader.request.requestDbId = id ∧ y.reader.request.requestId = r.requestId
    ∧ y.reader.request.messageId = r.messageId
  cursor : -1 ≤ y.reader.ask.normalizedCursor
  expected : y.reader.expected = y.reader.start + y.reader.yielded.length
  within : y.reader.expected.toNat ≤ (y.site.world.store.log id).length
  place : (y.site.world.store.log id).take y.reader.start ++ y.reader.yielded
    = (y.site.world.store.log id).take y.reader.expected.toNat
  started : y.reader.started = decide (1 ≤ y.reader.expected)
  terminal : y.reader.pc ≠ .returned → y.reader.terminal
    = ((y.site.world.store.log id).take y.reader.expected.toNat).any fun e => e.body.terminal
  pc : y.reader.pc.Fits y.reader r (y.site.world.store.log id)

theorem Reading.expected_nat {r : InferenceRequest} (h : Reading y id r) :
    (y.reader.expected.toNat : Int) = y.reader.expected := by
  have := h.expected
  omega

/-- A prefix is as good as the whole for what lies within it. -/
theorem take_mono_left {α : Type} {l l' : List α} (h : l <+: l') {n : Nat}
    (hn : n ≤ l.length) : l'.take n = l.take n := by
  obtain ⟨t, rfl⟩ := h
  rw [List.take_append_of_le_length hn]

theorem drop_mono_left {α : Type} {l l' : List α} (h : l <+: l') (n : Nat) :
    l.drop n <+: l'.drop n := by
  obtain ⟨t, rfl⟩ := h
  rw [List.drop_append]
  exact List.prefix_append _ _

/-- A log that is closed does not grow any more. -/
theorem log_final {log log' : List StreamEvent} (hwf : LogWellFormed r log)
    (hwf' : LogWellFormed r log') (hpre : log <+: log') : log' = log := by
  have hlen : log'.length = log.length := by
    have := hwf.counter
    have := hwf'.counter
    omega
  obtain ⟨t, rfl⟩ := hpre
  have hnil : t = [] := by simpa using hlen
  rw [hnil, List.append_nil]

/-- The site moves on under the reader. -/
theorem Reading.site (h : Reading y id r) (hinv : SiteInv cfg initial y.site)
    (act : SiteAct) :
    ∃ r', Reading { y with site := siteStep cfg y.site act } id r' := by
  obtain ⟨hpre, r', hr', hsame⟩ := hinv.logged (.now h.request) act
  have htake : ∀ {n}, n ≤ (y.site.world.store.log id).length →
      ((siteStep cfg y.site act).world.store.log id).take n
        = (y.site.world.store.log id).take n := fun hn => take_mono_left hpre hn
  have hstart : y.reader.start ≤ (y.site.world.store.log id).length := by
    have h₁ := h.expected
    have h₂ := h.within
    omega
  refine ⟨r', hr', h.asks.same hsame,
    ⟨h.record.1, h.record.2.1.trans hsame.requestId.symm,
      h.record.2.2.trans hsame.messageId.symm⟩,
    h.cursor, h.expected, h.within.trans hpre.length_le, ?_, h.started, ?_, ?_⟩
  · rw [htake hstart, htake h.within]
    exact h.place
  · intro hpc
    rw [htake h.within]
    exact h.terminal hpc
  · have hpc := h.pc
    show y.reader.pc.Fits y.reader r' _
    cases hcase : y.reader.pc with
    | read =>
        rw [hcase] at hpc
        exact hpc
    | yielding rows empty =>
        rw [hcase] at hpc
        exact hpc.trans (drop_mono_left hpre _)
    | check empty =>
        rw [hcase] at hpc
        exact hpc
    | returned =>
        rw [hcase] at hpc
        obtain ⟨hfinal, hlen⟩ := hpc
        have hkept := (hinv.storeMove act).final_kept h.request hfinal
        obtain rfl := Option.some.inj (hr'.symm.trans hkept)
        have hlog := log_final (hinv.fleet.chat.log.wellFormed id r' h.request)
          ((hinv.step act).fleet.chat.log.wellFormed id r' hr') hpre
        exact ⟨hfinal, by rw [hlog]; exact hlen⟩
    | expired =>
        rw [hcase] at hpc
        exact hpc
    | raised e =>
        rw [hcase] at hpc
        exact hpc.elim

-- ========================================================== reader step

theorem isStarted_eq (e : StreamEvent) : e.isStarted = e.body.started? := by
  unfold StreamEvent.isStarted EventBody.started?
  cases e.body <;> rfl

theorem StreamEvent.Names.blames {e : StreamEvent} (h : e.Names r) :
    e.blames r.requestId = true := by
  unfold StreamEvent.blames
  split
  · next error hbody => simp [h.error error hbody]
  · rfl

/-- Nothing before an event of the log closes it. -/
theorem open_before (hwf : LogWellFormed r (s.log id)) {i : Nat} {row : StreamEvent}
    (hrow : (s.log id)[i]? = some row) :
    (((s.log id).take i).any fun e => e.body.terminal) = false := by
  rw [Bool.eq_false_iff]
  intro hany
  obtain ⟨e, he, hclose⟩ := List.any_eq_true.mp hany
  obtain ⟨j, hj⟩ := List.getElem?_of_mem he
  rw [List.getElem?_take] at hj
  split at hj
  · next hlt =>
      have hlast := hwf.closing_last j e hj hclose
      obtain ⟨hlt', -⟩ := List.getElem?_eq_some_iff.mp hrow
      omega
  · cases hj

/-- An event of a log, validated in its turn, is refused by the public
contract only. -/
theorem validateEvent_log (hinv : ChatInv s) (hnames : NamesInv s)
    (hr : s.requests.get id = some r) {q : ChatRequestRecord}
    (hq : q.requestId = r.requestId ∧ q.messageId = r.messageId) {i : Nat}
    {row : StreamEvent} (hrow : (s.log id)[i]? = some row) :
    validateEvent row q r.conversationId i (decide (i = 0))
        (((s.log id).take i).any fun e => e.body.terminal)
      = if eventContract row = true then .ok ()
        else .error (.infrastructure "STREAM_EVENT_INVALID") := by
  have hwf := hinv.log.wellFormed id r hr
  have hname := hnames id r hr row (List.mem_of_getElem? hrow)
  have hseq : row.sequenceNo = i := hwf.seq_eq hrow
  -- the first event, and no other, is the started one
  have hstarted : row.isStarted = decide (i = 0) := by
    rw [isStarted_eq]
    by_cases hzero : i = 0
    · obtain ⟨first, rest, hlog, hopens⟩ := hwf.opened
      rw [hlog, hzero] at hrow
      obtain rfl : first = row := by simpa using hrow
      simp [hopens, hzero]
    · rw [decide_eq_false hzero, Bool.eq_false_iff]
      intro hst
      have hfirst := hname.started (by cases hb : row.body <;> simp_all [EventBody.started?])
      omega
  have hids : ¬ (row.requestId ≠ q.requestId ∨ row.conversationId ≠ r.conversationId
      ∨ row.messageId ≠ q.messageId) := by
    rw [hname.requestId, hname.conversationId, hname.messageId, hq.1, hq.2]
    simp
  have hblames : row.blames q.requestId = true := by
    rw [hq.1]
    exact hname.blames
  rw [open_before hwf hrow]
  by_cases hcontract : eventContract row = true
  · rw [if_pos hcontract]
    by_cases hzero : i = 0
    · simp [validateEvent, raiseIf, hseq, hcontract, hids, hstarted, hblames, hzero, bind,
        Except.bind]
    · simp [validateEvent, raiseIf, hseq, hcontract, hids, hstarted, hblames, hzero, bind,
        Except.bind]
  · rw [if_neg hcontract]
    simp [validateEvent, raiseIf, hseq, hcontract, bind, Except.bind]

/-- So an event in the hand of a reader is. -/
theorem Reading.validate (h : Reading y id r) (hinv : ChatInv y.site.world.store)
    (hnames : NamesInv y.site.world.store) {row : StreamEvent}
    (hrow : (y.site.world.store.log id)[y.reader.expected.toNat]? = some row)
    (hpc : y.reader.pc ≠ .returned) :
    validateEvent row y.reader.request y.reader.ask.conversationId y.reader.expected
        (!y.reader.started) y.reader.terminal
      = if eventContract row = true then .ok ()
        else .error (.infrastructure "STREAM_EVENT_INVALID") := by
  have hstart : (!y.reader.started) = decide (y.reader.expected.toNat = 0) := by
    rw [h.started, ← decide_not, decide_eq_decide]
    have := h.expected
    omega
  rw [h.terminal hpc, hstart, ← h.asks.conversationId, ← h.expected_nat, Int.toNat_natCast]
  exact validateEvent_log hinv hnames h.request h.record.2 hrow

/-- The deadline of the stream has come. -/
def Reader.Due (p : Reader) (env : ReaderEnv) : Prop :=
  ∃ d, p.deadline = some d ∧ d - env.deadlineNow ≤ 0

/-- A pause ends the stream at its deadline, or leads to the next read. -/
theorem Reader.pause_cases (p : Reader) (env : ReaderEnv) :
    (p.Due env ∧ p.pause env = { p with pc := .expired })
      ∨ (¬ p.Due env ∧ ∃ beat subscribed, p.pause env
        = { p with lastHeartbeat := beat, subscribed := subscribed, pc := .read }) := by
  have hwait : ∀ time : Int, 0 < time → ∃ beat subscribed, p.wait env time
      = { p with lastHeartbeat := beat, subscribed := subscribed, pc := .read } := by
    intro time htime
    unfold Reader.wait
    rw [if_neg (by omega)]
    exact ⟨_, _, rfl⟩
  have hfallback := p.service.fallbackPos
  have hdue : p.Due env ↔ p.deadline.isSome = true ∧ p.remaining env.deadlineNow ≤ 0 := by
    unfold Reader.Due Reader.remaining
    cases p.deadline <;> simp
  unfold Reader.pause
  dsimp only
  by_cases hexp : p.deadline.isSome = true ∧ p.remaining env.deadlineNow ≤ 0
  · rw [if_pos hexp]
    exact Or.inl ⟨hdue.mpr hexp, rfl⟩
  · rw [if_neg hexp]
    have hpos : 0 < p.remaining env.deadlineNow := by
      unfold Reader.remaining at hexp ⊢
      cases hd : p.deadline with
      | none =>
          simp only
          omega
      | some d =>
          rw [hd] at hexp
          simp only [Option.isSome_some, true_and] at hexp ⊢
          omega
    refine Or.inr ⟨fun h => hexp (hdue.mp h), ?_⟩
    split
    · split
      · exact ⟨env.heartbeatReset, p.subscribed, rfl⟩
      · exact hwait _ (by omega)
    · exact hwait _ (by omega)

/-- An ended request has an event the reader still owes, unless it has
yielded the closing one. -/
theorem Reading.owes (h : Reading y id r) (hinv : ChatInv y.site.world.store)
    (hpc : y.reader.pc ≠ .returned) (hopen : y.reader.terminal = false)
    (hfinal : r.status.final = true) : y.reader.expected ≤ r.lastEventSequence := by
  have hwf := hinv.log.wellFormed id r h.request
  rw [h.terminal hpc, Bool.eq_false_iff] at hopen
  obtain ⟨e, he, hclose⟩ := hwf.closed_iff.mpr hfinal
  obtain ⟨i, hi⟩ := List.getElem?_of_mem he
  have hlast := hwf.closing_last i e hi hclose
  have hcounter := hwf.counter
  have hnat := h.expected_nat
  by_contra hgt
  refine hopen (List.any_eq_true.mpr ⟨e, ?_, hclose⟩)
  refine List.mem_of_getElem? (i := i) ?_
  rw [List.getElem?_take, if_pos (by omega)]
  exact hi

/-- Nothing comes between the reads of the reader that it would mistake for
a hole, and the event it is about to yield passes the public contract. -/
def Seamless (y : Audience) : AudienceAct → Prop
  | .site _ => True
  | .read _ =>
      match y.reader.pc with
      | .yielding (row :: _) _ => eventContract row = true
      | .check true =>
          (y.site.world.store.requests.get y.reader.request.requestDbId).all
            (fun r => !streamTerminal r.status) = true
      | _ => True

/-- The event in hand is the next one of the log. -/
theorem Reading.row (h : Reading y id r) {row : StreamEvent} {rows : List StreamEvent}
    {empty : Bool} (hpc : y.reader.pc = .yielding (row :: rows) empty) :
    (y.site.world.store.log id)[y.reader.expected.toNat]? = some row
      ∧ rows <+: (y.site.world.store.log id).drop (y.reader.expected.toNat + 1) := by
  have hfits := h.pc
  rw [hpc] at hfits
  obtain ⟨rest, hrest⟩ := hfits
  have hget : ((y.site.world.store.log id).drop y.reader.expected.toNat)[0]? = some row := by
    rw [← hrest]
    rfl
  rw [List.getElem?_drop, Nat.add_zero] at hget
  refine ⟨hget, rest, ?_⟩
  rw [← List.drop_drop, ← hrest]
  rfl

/-- A read takes in the rest of the log. -/
theorem Reading.step_read (h : Reading y id r) (hinv : SiteInv cfg initial y.site)
    (env : ReaderEnv) (hpc : y.reader.pc = .read) :
    readerStep env y.reader y.site.world.store
      = { y.reader with
          pc := .yielding ((y.site.world.store.log id).drop y.reader.expected.toNat)
            ((y.site.world.store.log id).drop y.reader.expected.toNat).isEmpty } := by
  have hread := hinv.streamEvents_ok h.request h.asks y.reader.expected.toNat
  rw [h.expected_nat] at hread
  simp only [readerStep, hpc, hread]

/-- An event in hand is yielded. -/
theorem Reading.step_yield (h : Reading y id r) (hinv : SiteInv cfg initial y.site)
    (hnames : NamesInv y.site.world.store) (env : ReaderEnv) {row : StreamEvent}
    {rows : List StreamEvent} {empty : Bool} (hpc : y.reader.pc = .yielding (row :: rows) empty)
    (hgood : Seamless y (.read env)) :
    readerStep env y.reader y.site.world.store
      = { y.reader with
          started := true, expected := y.reader.expected + 1
          terminal := y.reader.terminal || row.body.terminal
          yielded := y.reader.yielded ++ [row], pc := .yielding rows empty } := by
  have hcontract : eventContract row = true := by
    simpa only [Seamless, hpc] using hgood
  have hvalid := h.validate hinv.fleet.chat hnames (h.row hpc).1 (by rw [hpc]; simp)
  rw [if_pos hcontract] at hvalid
  simp only [readerStep, hpc, hvalid]

/-- The check finds nothing amiss. -/
theorem Reading.step_check (h : Reading y id r) (hinv : SiteInv cfg initial y.site)
    (env : ReaderEnv) {empty : Bool} (hpc : y.reader.pc = .check empty)
    (hgood : Seamless y (.read env)) :
    readerStep env y.reader y.site.world.store = y.reader.pause env := by
  have hopen : y.reader.terminal = false := by
    have hfits := h.pc
    rw [hpc] at hfits
    exact hfits
  have howes := h.owes hinv.fleet.chat (by rw [hpc]; simp) hopen
  have hstatus := hinv.fleet.chat.streamTerminal_iff h.request
  have hfirst : ¬ (streamTerminal r.status = true
      ∧ y.reader.expected > r.lastEventSequence) := by
    rintro ⟨hst, hgt⟩
    have := howes (hstatus.mp hst)
    omega
  have hsecond : ¬ (empty = true ∧ streamTerminal r.status = true
      ∧ y.reader.expected ≤ r.lastEventSequence) := by
    rintro ⟨rfl, hst, -⟩
    have hgood' : (y.site.world.store.requests.get y.reader.request.requestDbId).all
        (fun r => !streamTerminal r.status) = true := by
      simpa only [Seamless, hpc] using hgood
    rw [h.record.1, h.request] at hgood'
    simp [hst] at hgood'
  simp only [readerStep, hpc, hinv.assertRequest_ok h.request h.asks, requestRecord]
  rw [if_neg hfirst, if_neg hsecond]

/-- An undisturbed step of the reader keeps its place. -/
theorem Reading.read (h : Reading y id r) (hinv : SiteInv cfg initial y.site)
    (hnames : NamesInv y.site.world.store) (env : ReaderEnv)
    (hgood : Seamless y (.read env)) :
    Reading (audienceStep cfg y (.read env)) id r := by
  have hwf := hinv.fleet.chat.log.wellFormed id r h.request
  have hfits := h.pc
  show Reading { y with reader := readerStep env y.reader y.site.world.store } id r
  cases hpc : y.reader.pc with
  | read =>
      rw [h.step_read hinv env hpc]
      exact { h with
        terminal := fun _ => h.terminal (by rw [hpc]; simp)
        pc := List.prefix_rfl }
  | yielding rows empty =>
      have hterm := h.terminal (by rw [hpc]; simp)
      cases rows with
      | nil =>
          unfold readerStep
          simp only [hpc]
          by_cases hclosed : y.reader.terminal = true
          · -- the closing event was the last one
            rw [hclosed] at hterm
            simp only [if_pos hclosed]
            obtain ⟨e, he, hclose⟩ := List.any_eq_true.mp hterm.symm
            obtain ⟨i, hi⟩ := List.getElem?_of_mem he
            rw [List.getElem?_take] at hi
            split at hi
            · next hlt =>
                have hlast := hwf.closing_last i e hi hclose
                have hwithin := h.within
                refine { h with terminal := fun hne => absurd rfl hne, pc := ⟨?_, ?_⟩ }
                · exact hwf.closed_iff.mp ⟨e, List.mem_of_getElem? hi, hclose⟩
                · show y.reader.expected.toNat = (y.site.world.store.log id).length
                  omega
            · cases hi
          · simp only [if_neg hclosed]
            exact { h with terminal := fun _ => hterm, pc := Bool.eq_false_iff.mpr hclosed }
      | cons row rows =>
          obtain ⟨hrow, hrest⟩ := h.row hpc
          have hnext : (y.reader.expected + 1).toNat = y.reader.expected.toNat + 1 := by
            have := h.expected_nat
            omega
          obtain ⟨hlt, hval⟩ := List.getElem?_eq_some_iff.mp hrow
          rw [h.step_yield hinv hnames env hpc hgood]
          refine { h with expected := ?_, within := ?_, place := ?_, started := ?_,
                          terminal := ?_, pc := ?_ }
          · show y.reader.expected + 1 = y.reader.start + ((y.reader.yielded ++ [row]).length : Int)
            rw [List.length_append, h.expected]
            simp
            omega
          · show (y.reader.expected + 1).toNat ≤ _
            rw [hnext]
            exact hlt
          · show _ ++ (y.reader.yielded ++ [row]) = List.take (y.reader.expected + 1).toNat _
            rw [hnext, ← List.append_assoc, List.take_add_one, hrow, Option.toList_some]
            exact congrArg (· ++ [row]) h.place
          · show true = decide (1 ≤ y.reader.expected + 1)
            have := h.expected
            rw [eq_comm, decide_eq_true_eq]
            omega
          · intro _
            show (y.reader.terminal || row.body.terminal)
              = List.any (List.take (y.reader.expected + 1).toNat _) _
            rw [hnext, List.take_add_one, hrow, Option.toList_some, List.any_append, ← hterm]
            simp
          · show rows <+: List.drop (y.reader.expected + 1).toNat _
            rw [hnext]
            exact hrest
  | check empty =>
      rw [hpc] at hfits
      have hopen : y.reader.terminal = false := hfits
      have hterm := h.terminal (by rw [hpc]; simp)
      rw [h.step_check hinv env hpc hgood]
      rcases y.reader.pause_cases env with ⟨-, heq⟩ | ⟨-, beat, subscribed, heq⟩
      · rw [heq]
        exact { h with terminal := fun _ => hterm, pc := hopen }
      · rw [heq]
        exact { h with terminal := fun _ => hterm, pc := hopen }
  | returned =>
      unfold readerStep
      simp only [hpc]
      exact h
  | expired =>
      unfold readerStep
      simp only [hpc]
      exact h
  | raised e =>
      rw [hpc] at hfits
      exact hfits.elim

/-- A disturbed step of the reader raises. -/
theorem Reading.disturbed (h : Reading y id r) (hinv : SiteInv cfg initial y.site)
    (hnames : NamesInv y.site.world.store) (env : ReaderEnv)
    (hbad : ¬ Seamless y (.read env)) :
    ∃ e, (audienceStep cfg y (.read env)).reader.pc = .raised e := by
  show ∃ e, (readerStep env y.reader y.site.world.store).pc = .raised e
  unfold readerStep
  cases hpc : y.reader.pc with
  | yielding rows empty =>
      cases rows with
      | nil => simp [Seamless, hpc] at hbad
      | cons row rows =>
          have hcontract : ¬ eventContract row = true := by
            simpa only [Seamless, hpc] using hbad
          have hvalid := h.validate hinv.fleet.chat hnames (h.row hpc).1 (by rw [hpc]; simp)
          rw [if_neg hcontract] at hvalid
          simp only [hvalid]
          exact ⟨_, rfl⟩
  | check empty =>
      cases empty with
      | false => simp [Seamless, hpc] at hbad
      | true =>
          have hfits := h.pc
          rw [hpc] at hfits
          simp only [Seamless, hpc, h.record.1, h.request, Option.all_some] at hbad
          have hst : streamTerminal r.status = true := by simpa using hbad
          have hfinal := (hinv.fleet.chat.streamTerminal_iff h.request).mp hst
          have howes := h.owes hinv.fleet.chat (by rw [hpc]; simp) hfits hfinal
          simp only [hinv.assertRequest_ok h.request h.asks, requestRecord]
          rw [if_neg (by omega), if_pos ⟨trivial, hst, howes⟩]
          exact ⟨_, rfl⟩
  | read => simp [Seamless, hpc] at hbad
  | returned => simp [Seamless, hpc] at hbad
  | expired => simp [Seamless, hpc] at hbad
  | raised e => simp [Seamless, hpc] at hbad

/-- A generator that has raised is over. -/
theorem raised_run (cfg : Config) (more : List AudienceAct) {e : StreamError}
    (h : y.reader.pc = .raised e) :
    (run (audienceStep cfg) y more).reader.pc = .raised e := by
  have hstep : ∀ (y : Audience) (act : AudienceAct), y.reader.pc = .raised e →
      (audienceStep cfg y act).reader.pc = .raised e := by
    intro y act hy
    cases act with
    | site act => exact hy
    | read env =>
        show (readerStep env y.reader y.site.world.store).pc = _
        unfold readerStep
        rw [hy]
        exact hy
  exact run_invariant hstep h more

-- ============================================================== opening

/-- An ended request has at least its opening and its closing event. -/
theorem ChatInv.last_of_final (h : ChatInv s) (hr : s.requests.get id = some r)
    (hfinal : r.status.final = true) : 1 ≤ r.lastEventSequence := by
  have hwf := h.log.wellFormed id r hr
  obtain ⟨e, he, hclose⟩ := hwf.closed_iff.mpr hfinal
  obtain ⟨i, hi⟩ := List.getElem?_of_mem he
  have hlast := hwf.closing_last i e hi hclose
  obtain ⟨first, rest, hlog, hopens⟩ := hwf.opened
  have hcounter := hwf.counter
  have hpos : i ≠ 0 := by
    rintro rfl
    rw [hlog] at hi
    obtain rfl : first = e := by simpa using hi
    cases hb : first.body <;> simp_all [EventBody.started?, EventBody.terminal]
  omega

/-- A stream opens at every cursor within the log. -/
theorem SiteInv.openStream_ok (h : SiteInv cfg initial x)
    (hr : x.world.store.requests.get id = some r) (hask : a.Asks r)
    (hlow : -1 ≤ a.normalizedCursor) (hhigh : a.normalizedCursor ≤ r.lastEventSequence)
    (hbeat : a.includeHeartbeats = true → 0 < a.heartbeatInterval)
    (service : StreamService) (now beat : Int) (subscribes : Bool) :
    ∃ p, openStream service now beat subscribes a x.world.store = .ok p
      ∧ p.ask = a ∧ Reading ⟨x, p⟩ id r := by
  have hwf := h.fleet.chat.log.wellFormed id r hr
  have hcounter := hwf.counter
  have hstatus := h.fleet.chat.streamTerminal_iff hr
  have hargs : ¬ (a.normalizedCursor < -1
      ∨ a.includeHeartbeats = true ∧ a.heartbeatInterval ≤ 0) := by
    rintro (hlt | ⟨hb, hle⟩)
    · omega
    · have := hbeat hb
      omega
  have hmissing : ¬ (streamTerminal r.status = true ∧ r.lastEventSequence < 1) := by
    rintro ⟨hst, hlt⟩
    have := h.fleet.chat.last_of_final hr (hstatus.mp hst)
    omega
  have hbeyond : ¬ a.normalizedCursor > r.lastEventSequence := by omega
  have hopen : openStream service now beat subscribes a x.world.store = .ok
      { service, ask := a, request := requestRecord id r, expected := a.normalizedCursor + 1
        terminal := false, started := 0 ≤ a.normalizedCursor
        deadline := service.maxDuration.map fun d => now + d
        lastHeartbeat := beat, subscribed := service.notifier && subscribes, yielded := []
        pc := if (streamTerminal r.status
          && decide (r.lastEventSequence ≤ a.normalizedCursor)) = true then .returned
          else .read } := by
    simp only [openStream, h.assertRequest_ok hr hask, raiseIf, requestRecord, hargs,
      hmissing, hbeyond, if_false, bind, Except.bind]
    rfl
  refine ⟨_, hopen, rfl, ?_⟩
  have hstart : ((a.normalizedCursor + 1).toNat : Int) = a.normalizedCursor + 1 := by omega
  refine
    { request := hr, asks := hask, record := ⟨rfl, rfl, rfl⟩, cursor := hlow
      expected := ?_, within := ?_, place := ?_, started := ?_, terminal := ?_, pc := ?_ }
  · show a.normalizedCursor + 1 = ((a.normalizedCursor + 1).toNat : Int) + (0 : Nat)
    omega
  · show (a.normalizedCursor + 1).toNat ≤ (x.world.store.log id).length
    omega
  · exact List.append_nil _
  · show decide (0 ≤ a.normalizedCursor) = decide (1 ≤ a.normalizedCursor + 1)
    rw [decide_eq_decide]
    omega
  · -- the closing event, if it is there, is past the cursor
    intro hpc
    show false = List.any (List.take (a.normalizedCursor + 1).toNat _) _
    rw [eq_comm, Bool.eq_false_iff]
    intro hany
    obtain ⟨e, he, hclose⟩ := List.any_eq_true.mp hany
    obtain ⟨i, hi⟩ := List.getElem?_of_mem he
    rw [List.getElem?_take] at hi
    split at hi
    · next hlt =>
        have hlast := hwf.closing_last i e hi hclose
        have hfinal := hwf.closed_iff.mp ⟨e, List.mem_of_getElem? hi, hclose⟩
        have hle : r.lastEventSequence ≤ a.normalizedCursor := by omega
        exact hpc (if_pos (by simp [hstatus.mpr hfinal, hle]))
    · cases hi
  · show ReaderPc.Fits (if _ then _ else _) _ _ _
    split
    · next hcovered =>
        simp only [Bool.and_eq_true, decide_eq_true_eq] at hcovered
        refine ⟨hstatus.mp hcovered.1, ?_⟩
        show (a.normalizedCursor + 1).toNat = (x.world.store.log id).length
        omega
    · exact rfl

end Mosaic.Chat
