/-
No truncated and no unbilled completion.

A `completed` event is written by one step of the worker only, and
`ReadInv` says what the process remembers there: everything the provider
sent. `Finished` keeps that together with the money: the usage recorded
for the request is the reported one, and what is captured from its hold
is the price of that usage. The step lemmas follow the parties: somebody
else's effect, a settlement, and the completion itself.
-/
import Mosaic.Chat.Proofs.Reading
import Mosaic.Providers.Proofs.Stream

namespace Mosaic.Chat

open Lib Providers

variable {cfg : Config} {env : Env} {who : Caller} {s s' : Store} {p p' : Process}
  {w w' : World} {id t : Nat} {content : String}

-- ============================================================== finished

/-- The request `id` was completed with `content` by the process `pid`,
whose provider delivered `responses` and reported the usage `u`. -/
structure Finished (cfg : Config) (w : World) (id : Nat) (content : String) (pid : Nat)
    (p : Process) (feed : Feed) (responses : List StreamResponse) (u : TokenUsage) :
    Prop where
  process : w.processes.get pid = some p
  request : p.current.requestDbId = id
  opened : p.feed = some feed
  delivered : Delivered cfg.decode feed responses u
  text : content = textOf responses
  succeeded : ∃ r, w.store.requests.get id = some r ∧ r.status = .succeeded
  recorded : ∃ i x, w.store.billing.usageRecords.get i = some x
    ∧ x.source = .inferenceRequest id
  usage : ∀ i x, w.store.billing.usageRecords.get i = some x →
    x.source = .inferenceRequest id → x.usage = billingUsage u
  billed : ∀ i b c, w.store.billing.reservations.get i = some b →
    b.sourceType = "chat_inference" → b.sourceId = id →
    b.capturedAmountMinor = some c →
    ∃ r price charge, w.store.requests.get id = some r
      ∧ cfg.book r.acceptedPriceVersionId = some price
      ∧ Billing.chargeForUsage price (billingUsage u) = .ok charge
      ∧ c = (charge.amountMinor : Int)

/-- Every completion of the world is finished by some process. -/
def CompletionInv (cfg : Config) (w : World) : Prop :=
  ∀ e ∈ w.store.events.rows, ∀ content, e.body = .completed content →
    ∃ pid p feed responses u,
      Finished cfg w e.inferenceRequestId content pid p feed responses u

structure StreamInv (cfg : Config) (w : World) : Prop where
  fleet : FleetInv w
  bill : BillInv w.store
  reads : ∀ pid p, w.processes.get pid = some p → ReadInv cfg w.store p
  completions : CompletionInv cfg w

/-- A process that has a stream keeps it, whoever steps. -/
def KeepsStreams (w w' : World) : Prop :=
  ∀ pid p feed, w.processes.get pid = some p → p.feed = some feed →
    ∃ p', w'.processes.get pid = some p'
      ∧ p'.current.requestDbId = p.current.requestDbId ∧ p'.feed = some feed

/-- A finished request stays finished while its rows stay. -/
theorem Finished.carry {pid : Nat} {feed : Feed} {responses : List StreamResponse}
    {u : TokenUsage} (h : Finished cfg w id content pid p feed responses u)
    (hstreams : KeepsStreams w w')
    (hrows : ∀ r, w.store.requests.get id = some r → r.status = .succeeded →
      w'.store.requests.get id = some r)
    (hrecorded : ∀ i x, w.store.billing.usageRecords.get i = some x →
      ∃ x', w'.store.billing.usageRecords.get i = some x' ∧ x'.source = x.source)
    (husages : ∀ i x', w'.store.billing.usageRecords.get i = some x' →
      x'.source = .inferenceRequest id →
      ∃ x, w.store.billing.usageRecords.get i = some x ∧ x'.source = x.source
        ∧ x'.usage = x.usage)
    (hbilled : ∀ i b' c, w'.store.billing.reservations.get i = some b' →
      b'.sourceType = "chat_inference" → b'.sourceId = id →
      b'.capturedAmountMinor = some c →
      (∃ i b, w.store.billing.reservations.get i = some b
        ∧ b.sourceType = "chat_inference" ∧ b.sourceId = id
        ∧ b.capturedAmountMinor = some c)
      ∨ ∃ r price charge, w.store.requests.get id = some r
          ∧ cfg.book r.acceptedPriceVersionId = some price
          ∧ Billing.chargeForUsage price (billingUsage u) = .ok charge
          ∧ c = (charge.amountMinor : Int)) :
    ∃ p', Finished cfg w' id content pid p' feed responses u := by
  obtain ⟨p', hp', hid, hfeed⟩ := hstreams pid p feed h.process h.opened
  obtain ⟨r, hr, hsucc⟩ := h.succeeded
  have hr' := hrows r hr hsucc
  refine ⟨p',
    { process := hp', request := hid.trans h.request, opened := hfeed
      delivered := h.delivered, text := h.text, succeeded := ⟨r, hr', hsucc⟩
      recorded := ?_, usage := ?_, billed := ?_ }⟩
  · obtain ⟨i, x, hx, hsrc⟩ := h.recorded
    obtain ⟨x', hx', hsrc'⟩ := hrecorded i x hx
    exact ⟨i, x', hx', hsrc'.trans hsrc⟩
  · intro i x' hx' hsrc
    obtain ⟨x, hx, hsrc', huse⟩ := husages i x' hx' hsrc
    exact huse.trans (h.usage i x hx (hsrc'.symm.trans hsrc))
  · intro i b' c hb' hst hsid hcap
    have hprice : ∃ x price charge, w.store.requests.get id = some x
        ∧ cfg.book x.acceptedPriceVersionId = some price
        ∧ Billing.chargeForUsage price (billingUsage u) = .ok charge
        ∧ c = (charge.amountMinor : Int) := by
      obtain ⟨j, b, hb, hbst, hbsid, hbcap⟩ | hnew := hbilled i b' c hb' hst hsid hcap
      · exact h.billed j b c hb hbst hbsid hbcap
      · exact hnew
    obtain ⟨x, price, charge, hx, hrest⟩ := hprice
    obtain rfl := Option.some.inj (hr.symm.trans hx)
    exact ⟨r, price, charge, hr', hrest⟩

-- =========================================================== from outside

/-- Only a caller that can succeed writes a `completed` event. -/
theorem Effect.completed_old (heff : Effect who s s')
    (hends : who.outcomes.contains .succeeded = false) {e : StreamEvent}
    (he : e ∈ s'.events.rows) (hbody : e.body = .completed content) :
    e ∈ s.events.rows := by
  have hinsert : ∀ {x : StreamEvent}, s'.events = s.events.insert x →
      x.body ≠ .completed content → e ∈ s.events.rows := by
    intro x hev hne
    rw [hev, Table.rows_insert, List.mem_append, List.mem_singleton] at he
    obtain he | rfl := he
    · exact he
    · exact absurd hbody hne
  cases heff with
  | quiet h => exact h.events ▸ he
  | opened c h => exact h.events ▸ he
  | accepted cid mid c c' r m x o h => exact hinsert h.events (by simp [h.eventBody])
  | moved j y y' h hmove => exact h.events ▸ he
  | delta j y y' m m' x text h => exact hinsert h.events (by simp [h.eventBody])
  | ended j y y' c c' m m' x h =>
      refine hinsert h.events fun hx => ?_
      have hout := h.outcome
      rw [h.eventCompleted content hx, hends] at hout
      cases hout

/-- A caller that cannot succeed and makes no billing call records no
usage and captures nothing. -/
theorem Effect.billing_kept (heff : Effect who s s')
    (hends : who.outcomes.contains .succeeded = false) (hwho : who.settles = false)
    (hbill : BillInv s) :
    s'.billing.usageRecords = s.billing.usageRecords
      ∧ ∀ i b', s'.billing.reservations.get i = some b' →
        s.billing.reservations.get i = some b' ∨ b'.capturedAmountMinor = none := by
  cases heff with
  | quiet h hb =>
      obtain hb | ⟨hsettles, -⟩ := hb
      · exact ⟨by rw [hb], fun i b' hb' => Or.inl (hb ▸ hb')⟩
      · simp [hwho] at hsettles
  | opened c h => exact ⟨by rw [h.billing], fun i b' hb' => Or.inl (h.billing ▸ hb')⟩
  | accepted cid mid c c' x m e o ha =>
      obtain ⟨husage, -, b, hins, -, -, -, hcap, -⟩ := hbill.fresh_hold ha
      refine ⟨husage, fun i b' hb' => ?_⟩
      rw [hins] at hb'
      obtain ⟨-, rfl⟩ | hb' := Table.get_insert_cases hb'
      · exact Or.inr hcap
      · exact Or.inl hb'
  | moved j y y' h hmove => exact ⟨by rw [h.billing], fun i b' hb' => Or.inl (h.billing ▸ hb')⟩
  | delta j y y' m m' x text h =>
      exact ⟨by rw [h.billing], fun i b' hb' => Or.inl (h.billing ▸ hb')⟩
  | ended j y y' c c' m m' x h =>
      obtain hb | ⟨hsucc, -⟩ := h.billing
      · exact ⟨by rw [hb], fun i b' hb' => Or.inl (hb ▸ hb')⟩
      · have hout := h.outcome
        rw [hsucc, hends] at hout
        cases hout

theorem CompletionInv.effect (h : CompletionInv cfg w) (hbill : BillInv w.store)
    (heff : Effect who w.store w'.store)
    (hends : who.outcomes.contains .succeeded = false) (hwho : who.settles = false)
    (hstreams : KeepsStreams w w') : CompletionInv cfg w' := by
  obtain ⟨husages, hreservations⟩ := heff.billing_kept hends hwho hbill
  intro e he content hbody
  obtain ⟨pid, p, feed, responses, u, hfin⟩ :=
    h e (heff.completed_old hends he hbody) content hbody
  obtain ⟨p', hfin'⟩ := hfin.carry hstreams
    (fun r hr hsucc => heff.final_kept hr (by rw [hsucc]; rfl))
    (fun i x hx => ⟨x, by rw [husages, hx], rfl⟩)
    (fun i x' hx' _ => ⟨x', husages ▸ hx', rfl, rfl⟩)
    (fun i b' c hb' hst hsid hcap => by
      obtain hb | hnone := hreservations i b' hb'
      · exact Or.inl ⟨i, b', hb, hst, hsid, hcap⟩
      · simp [hnone] at hcap)
  exact ⟨pid, p', feed, responses, u, hfin'⟩

/-- A world with the same processes keeps the streams. -/
theorem keepsStreams_of_processes (h : w'.processes = w.processes) : KeepsStreams w w' :=
  fun pid p feed hp hfeed => ⟨p, by rw [h, hp], rfl, hfeed⟩

theorem CompletionInv.effects (h : CompletionInv cfg w) (hbill : BillInv w.store)
    (heff : Effects who w.store w'.store)
    (hends : who.outcomes.contains .succeeded = false) (hwho : who.settles = false)
    (hstreams : KeepsStreams w w') : CompletionInv cfg w' := by
  cases heff with
  | one heff => exact h.effect hbill heff hends hwho hstreams
  | sweep hsweeper hsweep =>
      -- sweep the old world first, then let the processes move
      have hswept : ∀ s', Relation.ReflTransGen Swept w.store s' →
          BillInv s' ∧ CompletionInv cfg { w with store := s' } := by
        intro s' hs'
        induction hs' with
        | refl => exact ⟨hbill, h⟩
        | tail _ hsw ih =>
            refine ⟨ih.1.effect hsw.effect rfl, ?_⟩
            exact ih.2.effect (w := { w with store := _ }) ih.1 hsw.effect rfl rfl
              (keepsStreams_of_processes rfl)
      obtain ⟨hbill', hinv'⟩ := hswept _ hsweep
      have hidle : Effect ⟨none, [], false, false⟩ w'.store w'.store := Effect.refl _
      exact hinv'.effect (w := { w with store := _ }) hbill' hidle rfl rfl hstreams

-- =========================================================== settlements

/-- The price a capture of a chat hold uses is the one accepted with the
request. -/
theorem priceForReservation_book {book : Catalog.PriceBook} {tenantId : Nat}
    {b : Billing.BalanceReservation} {price : Billing.PriceSnapshot}
    (h : Billing.priceForReservation (s.sources book) tenantId b = .ok price)
    (hst : b.sourceType = "chat_inference") :
    ∃ r, s.requests.get b.sourceId = some r
      ∧ book r.acceptedPriceVersionId = some price := by
  simp only [Billing.priceForReservation, hst, if_true, bind_eq_ok, orRaise_eq_ok,
    Store.sources, Option.map_eq_some_iff, Option.filter_eq_some_iff] at h
  obtain ⟨accepted, ⟨r, ⟨hr, -⟩, rfl⟩, hprice⟩ := h
  exact ⟨r, hr, hprice⟩

/-- A settlement that names no other usage than the reported one keeps
every completion billed by its usage. -/
theorem CompletionInv.settled {call : Billing.Call} {db : Billing.Db}
    (h : CompletionInv cfg w) (hsettled : Settled cfg.book w.store call db)
    (hasked : ∀ now q, call = .capture now .none (w.store.sources cfg.book) q →
      ∀ b, w.store.billing.reservations.get q.reservationId = some b →
      b.sourceType = "chat_inference" →
      ∀ content pid p feed responses u,
        Finished cfg w b.sourceId content pid p feed responses u →
        q.usage = none ∨ q.usage = some (billingUsage u))
    (hstore : w'.store = { w.store with billing := db })
    (hstreams : KeepsStreams w w') : CompletionInv cfg w' := by
  intro e he content hbody
  rw [hstore] at he
  obtain ⟨pid, p, feed, responses, u, hfin⟩ := h e he content hbody
  have hrows : ∀ r, w.store.requests.get e.inferenceRequestId = some r →
      r.status = .succeeded → w'.store.requests.get e.inferenceRequestId = some r := by
    intro r hr _
    rw [hstore]
    exact hr
  have hfinish : ∃ p', Finished cfg w' e.inferenceRequestId content pid p' feed
      responses u := by
    cases hsettled with
    | nothing hreservations husages =>
        refine hfin.carry hstreams hrows ?_ ?_ ?_
        · intro i x hx
          exact ⟨x, by rw [hstore]; exact husages ▸ hx, rfl⟩
        · intro i x' hx' _
          rw [hstore] at hx'
          exact ⟨x', husages ▸ hx', rfl, rfl⟩
        · intro i b' c hb' hst hsid hcap
          rw [hstore] at hb'
          exact Or.inl ⟨i, b', hreservations ▸ hb', hst, hsid, hcap⟩
    | released j b b₁ husages hrep hsame hkeep =>
        refine hfin.carry hstreams hrows ?_ ?_ ?_
        · intro i x hx
          exact ⟨x, by rw [hstore]; exact husages ▸ hx, rfl⟩
        · intro i x' hx' _
          rw [hstore] at hx'
          exact ⟨x', husages ▸ hx', rfl, rfl⟩
        · intro i b' c hb' hst hsid hcap
          rw [hstore] at hb'
          obtain ⟨rfl, rfl⟩ | ⟨-, hb⟩ := hrep.cases hb'
          · exact Or.inl ⟨i, b, hrep.old, hsame.2.1.symm.trans hst,
              hsame.2.2.symm.trans hsid, hkeep.symm.trans hcap⟩
          · exact Or.inl ⟨i, b', hb, hst, hsid, hcap⟩
    | priced q b usageId x price charge hcall hp =>
        refine hfin.carry hstreams hrows ?_ ?_ ?_
        · intro i y hy
          obtain ⟨y', hy', hsrc, -⟩ := hp.usages.new hy
          exact ⟨y', by rw [hstore]; exact hy', hsrc⟩
        · intro i y' hy' _
          rw [hstore] at hy'
          exact hp.usages.old hy'
        · intro i b' c hb' hst hsid hcap
          rw [hstore] at hb'
          obtain hsame | ⟨b₁, hrep, hsame, hcharged⟩ := hp.captured
          · exact Or.inl ⟨i, b', hsame ▸ hb', hst, hsid, hcap⟩
          · obtain ⟨rfl, rfl⟩ | ⟨-, hb⟩ := hrep.cases hb'
            · -- this is the hold being captured, and its usage the reported one
              right
              have hbst := hsame.2.1.symm.trans hst
              have hbsid := hsame.2.2.symm.trans hsid
              obtain ⟨now, hcall⟩ := hcall
              obtain ⟨r, hr, hbook⟩ := priceForReservation_book hp.accepted hbst
              obtain ⟨hx, hxsrc⟩ := usageForReservation_source hp.recorded hbst
              have husage : q.usage.getD x.usage = billingUsage u := by
                rw [hbsid] at hxsrc
                have hxu := hfin.usage usageId x hx hxsrc
                obtain hnone | hsome := hasked now q hcall b hp.reservation.1 hbst content
                  pid p feed responses u (hbsid ▸ hfin)
                · rw [hnone]
                  exact hxu
                · rw [hsome]
                  rfl
              have hcharge := hp.charged
              rw [husage] at hcharge
              rw [hbsid] at hr
              rw [hcharged, Option.some.injEq] at hcap
              exact ⟨r, price, charge, hr, hbook, hcharge, hcap.symm⟩
            · exact Or.inl ⟨i, b', hb, hst, hsid, hcap⟩
  obtain ⟨p', hfin'⟩ := hfinish
  exact ⟨pid, p', feed, responses, u, hfin'⟩

-- ========================================================= the completion

/-- What the process took in full is what the provider delivered. -/
theorem TookAll.delivered (h : TookAll cfg p) :
    ∃ feed responses u, p.feed = some feed ∧ Delivered cfg.decode feed responses u
      ∧ p.content = textOf responses ∧ p.usage = some u := by
  obtain ⟨seen, ⟨feed, hfeed, hitems⟩, hcontent, husage⟩ := h
  rw [List.append_nil] at hitems
  obtain ⟨responses, u, hdel, htexts, husages⟩ := streamItems_delivered hitems
  refine ⟨feed, responses, u, hfeed, hdel, ?_, ?_⟩
  · rw [hcontent, chunkText, htexts, textOf]
  · rw [husage, chunkUsage_eq_getLast, husages]
    rfl

/-- What a completion that took effect wrote. -/
structure CompletedRow (s s' : Store) (e : Execution) (content : String)
    (usage : TokenUsage) (r r' : InferenceRequest) (ev : StreamEvent) : Prop where
  requests : Table.Replaced s.requests s'.requests e.requestDbId r r'
  running : r.status = .running
  succeeded : r'.status = .succeeded
  events : s'.events = s.events.insert ev
  event : ev.inferenceRequestId = e.requestDbId ∧ ev.body = .completed content
  reservations : s'.billing.reservations = s.billing.reservations
  usages : (∃ i x, s.billing.usageRecords.get i = some x
      ∧ x.source = .inferenceRequest e.requestDbId)
    ∨ ∃ x, x.source = .inferenceRequest e.requestDbId ∧ x.usage = billingUsage usage
      ∧ s'.billing.usageRecords = s.billing.usageRecords.insert x

theorem markCompleted_row {book : Catalog.PriceBook} {now lockedNow : Nat}
    {e : Execution} {seq : Int} {provider : Option String} {usage : TokenUsage}
    {x : Bool × Store}
    (h : markCompleted book now lockedNow e seq content provider usage s = .ok x) :
    x.2 = s ∨ ∃ r r' ev, CompletedRow s x.2 e content usage r r' ev := by
  unfold markCompleted at h
  split at h
  · rw [pure_eq_ok] at h
    exact Or.inl (by rw [← h])
  · next r hfilter =>
      have hw := writable_of_filter hfilter
      split at h
      · simp only [bind_eq_ok, pure_eq_ok] at h
        obtain ⟨price, -, charge, -, -, -, usageRecords, hrecord, rfl⟩ := h
        refine Or.inr ⟨r, _, _,
          { requests := Table.replaced_modify hw.get _
            running := by simpa using hw.status, succeeded := rfl, events := rfl
            event := ⟨rfl, rfl⟩, reservations := rfl, usages := ?_ }⟩
        unfold recordUsage at hrecord
        split at hrecord
        · next y hfind =>
            obtain ⟨hget, hp⟩ := Table.find_some hfind
            simp only [Bool.and_eq_true, beq_iff_eq] at hp
            exact Or.inl ⟨y.1, y.2, hget, hp.2⟩
        · simp only [bind_eq_ok, pure_eq_ok] at hrecord
          obtain ⟨label, -, rfl⟩ := hrecord
          exact Or.inr ⟨_, rfl, rfl, rfl⟩
      · rw [pure_eq_ok] at h
        exact Or.inl (by rw [← h])

/-- The completion of a stream that was read in full. -/
theorem CompletionInv.completed {pid : Nat} {r r' : InferenceRequest} {ev : StreamEvent}
    (h : CompletionInv cfg w) (hbill : BillInv w.store)
    (hrow : CompletedRow w.store w'.store p.current p.content (p.usage.getD {}) r r' ev)
    (htook : TookAll cfg p) (hp' : w'.processes.get pid = some p')
    (hrequest : p'.current.requestDbId = p.current.requestDbId)
    (hfeed : p'.feed = p.feed) (hstreams : KeepsStreams w w') :
    CompletionInv cfg w' := by
  obtain ⟨feed, responses, u, hopened, hdel, htext, huse⟩ := htook.delivered
  rw [huse] at hrow
  -- nothing was recorded for a running request
  have hnone : ∀ i x, w.store.billing.usageRecords.get i = some x →
      x.source ≠ .inferenceRequest p.current.requestDbId := by
    intro i x hx hsrc
    obtain ⟨y, hy, hsucc⟩ := hbill.recorded i x _ hx hsrc
    obtain rfl := Option.some.inj (hrow.requests.old.symm.trans hy)
    simp [hrow.running] at hsucc
  obtain ⟨x, hxsrc, hxuse, husages⟩ := hrow.usages.resolve_left
    fun ⟨i, x, hx, hsrc⟩ => hnone i x hx hsrc
  intro e he content hbody
  rw [hrow.events, Table.rows_insert, List.mem_append, List.mem_singleton] at he
  obtain he | rfl := he
  · obtain ⟨qid, q, feed', responses', u', hfin⟩ := h e he content hbody
    have hne : e.inferenceRequestId ≠ p.current.requestDbId := by
      intro hid
      obtain ⟨y, hy, hsucc⟩ := hfin.succeeded
      rw [hid] at hy
      obtain rfl := Option.some.inj (hrow.requests.old.symm.trans hy)
      simp [hrow.running] at hsucc
    obtain ⟨q', hfin'⟩ := hfin.carry hstreams
      (fun y hy _ => by rw [hrow.requests.other hne, hy])
      (fun i y hy => ⟨y, by rw [husages]; exact Table.get_insert_of_some hy _, rfl⟩)
      (fun i y hy hsrc => by
        rw [husages] at hy
        obtain ⟨-, rfl⟩ | hy := Table.get_insert_cases hy
        · rw [hxsrc, Billing.UsageSource.inferenceRequest.injEq] at hsrc
          exact absurd hsrc.symm hne
        · exact ⟨y, hy, rfl, rfl⟩)
      (fun i b c hb hst hsid hcap =>
        Or.inl ⟨i, b, hrow.reservations ▸ hb, hst, hsid, hcap⟩)
    exact ⟨qid, q', feed', responses', u', hfin'⟩
  · have hcontent : content = p.content := by
      rw [hrow.event.2, EventBody.completed.injEq] at hbody
      exact hbody.symm
    rw [hrow.event.1]
    refine ⟨pid, p', feed, responses, u,
      { process := hp', request := hrequest, opened := hfeed.trans hopened
        delivered := hdel, text := hcontent.trans htext
        succeeded := ⟨r', hrow.requests.new, hrow.succeeded⟩
        recorded := ⟨_, x, by rw [husages]; exact Table.get_insert_self _ _, hxsrc⟩
        usage := ?_, billed := ?_ }⟩
    · intro i y hy hsrc
      rw [husages] at hy
      obtain ⟨-, rfl⟩ | hy := Table.get_insert_cases hy
      · exact hxuse
      · exact absurd hsrc (hnone i y hy)
    · intro i b c hb hst hsid hcap
      rw [hrow.reservations] at hb
      obtain ⟨j, y, hy, hsrc⟩ := hbill.captured i b hb hst (by simp [hcap])
      exact absurd (hsid ▸ hsrc) (hnone j y hy)

-- ============================================================== one act

/-- The store after the completing step. -/
theorem complete_store (hpc : p.pc = .complete)
    (hstep : workerStep cfg env p s = (p', s')) :
    s' = s ∨ ∃ now lockedNow b, markCompleted cfg.book now lockedNow p.current
      (p.current.lastEventSequence + 1) p.content p.providerRequestId
      (p.usage.getD {}) s = .ok (b, s') := by
  simp only [workerStep, hpc] at hstep
  split at hstep
  all_goals
    next hattempt =>
      obtain ⟨rfl, rfl⟩ := hstep
      obtain ⟨-, rfl⟩ | ⟨x, hx, -⟩ := attempt_cases hattempt
      · exact Or.inl rfl
      · exact Or.inr ⟨_, _, x, hx⟩

/-- A process that steps keeps its stream, and so do the others. -/
theorem keepsStreams_work {pid : Nat} (s' : Store) (streams : List Nat)
    (hfleet : FleetInv w) (hp : w.processes.get pid = some p) (hkept : Kept p p') :
    KeepsStreams w
      { store := s', processes := w.processes.modify pid fun _ => p', streams } := by
  intro qid q feed hq hfeed
  by_cases hid : pid = qid
  · subst hid
    obtain rfl := Option.some.inj (hq.symm.trans hp)
    have hopen : q.pc ≠ .openStream := by
      intro hpc
      simp [hfleet.fresh pid q hp (by rw [hpc]; rfl)] at hfeed
    refine ⟨p', ?_, by rw [hkept.current], (hkept.feed hopen).trans hfeed⟩
    show (w.processes.modify pid fun _ => p').get pid = some p'
    rw [Table.get_modify_self, hp]
    rfl
  · exact ⟨q, by rw [Table.get_modify_ne _ hid, hq], rfl, hfeed⟩

/-- The usage a process captures with is the reported one. -/
theorem StreamInv.captured_usage (h : StreamInv cfg w) {pid : Nat}
    (hp : w.processes.get pid = some p) (hpc : p.pc = .capture) {reservationId : Nat}
    (hres : p.current.reservationId = some reservationId)
    {b : Billing.BalanceReservation}
    (hb : w.store.billing.reservations.get reservationId = some b)
    {qid : Nat} {q : Process} {feed : Feed} {responses : List StreamResponse}
    {u : TokenUsage}
    (hfin : Finished cfg w b.sourceId content qid q feed responses u) :
    p.usage = some u := by
  have hread := h.reads pid p hp
  have htook : TookAll cfg p := by
    have := hread.remembers
    simpa only [Remembers, hpc] using this
  obtain ⟨feed', responses', u', hopened, hdel, -, huse⟩ := htook.delivered
  -- the hold is the one of this process's request
  obtain ⟨r, hr⟩ := hread.placed
  obtain ⟨y, hy, -, hsid⟩ :=
    h.bill.held _ r reservationId hr.row (hr.reservation.trans hres)
  obtain rfl := Option.some.inj (hb.symm.trans hy)
  -- so the finisher is this process, with its one stream
  have hqpc : q.pc ≠ .requeued := by
    intro hpark
    have := h.fleet.fresh qid q hfin.process (by rw [hpark]; rfl)
    simp [hfin.opened] at this
  obtain rfl := h.fleet.alone qid pid q p hfin.process hp hqpc (by simp [hpc])
    (hfin.request.trans hsid)
  obtain rfl := Option.some.inj (hp.symm.trans hfin.process)
  obtain rfl := Option.some.inj (hopened.symm.trans hfin.opened)
  rw [huse, (hdel.unique hfin.delivered).2]

/-- A process steps. -/
theorem StreamInv.worked (h : StreamInv cfg w) {pid : Nat}
    (hp : w.processes.get pid = some p)
    (hstep : workerStep cfg env p w.store = (p', s')) {streams : List Nat} :
    BillInv s' ∧ CompletionInv cfg
      { store := s', processes := w.processes.modify pid fun _ => p', streams } := by
  have hkept := workerStep_kept hstep
  have hstreams := keepsStreams_work s' streams h.fleet hp hkept
  have heffect : ∀ who : Caller, Effects who w.store s' →
      who.outcomes.contains .succeeded = false → who.settles = false →
      BillInv s' ∧ CompletionInv cfg
        { store := s', processes := w.processes.modify pid fun _ => p', streams } :=
    fun _ heff hends hsettles => ⟨h.bill.effects heff hsettles,
      h.completions.effects h.bill heff hends hsettles hstreams⟩
  by_cases hpc : p.pc = .complete
  · obtain rfl | ⟨now, lockedNow, b, hdone⟩ := complete_store hpc hstep
    · exact heffect ⟨none, [], false, false⟩ (Effects.one (Effect.refl _)) rfl rfl
    · have heff := Effects.one (markCompleted_effect h.fleet.chat hdone)
      refine ⟨h.bill.effects heff rfl, ?_⟩
      obtain hsame | ⟨r, r', ev, hrow⟩ := markCompleted_row hdone
      · exact (heffect ⟨none, [], false, false⟩
          (hsame ▸ Effects.one (Effect.refl _)) rfl rfl).2
      · have htook : TookAll cfg p := by
          have := (h.reads pid p hp).remembers
          simpa only [Remembers, hpc] using this
        have hget : (w.processes.modify pid fun _ => p').get pid = some p' := by
          rw [Table.get_modify_self, hp]
          rfl
        exact h.completions.completed h.bill hrow htook hget (by rw [hkept.current])
          (hkept.feed (by simp [hpc])) hstreams
  · cases workerStep_wrote hstep with
    | nothing hs =>
        exact heffect ⟨none, [], false, false⟩
          (hs ▸ Effects.one (Effect.refl _)) rfl rfl
    | call op howner hkeeps hends hs =>
        refine heffect op.caller (hs ▸ step_effects cfg.book h.fleet.chat op) ?_ hkeeps.2
        rw [Bool.eq_false_iff]
        exact fun hsucc => hpc (hends hsucc)
    | settle call hcall hs =>
        have hsettlement : Settlement cfg.book w.store call := by
          cases hcall with
          | release now rid hres => exact Settlement.release now _ rid
          | capture now rid hcapture hres => exact Settlement.capture now _ rid _
        have hstore : s' = { w.store with
            billing := Billing.step w.store.billing call } := hs
        refine ⟨hstore ▸ h.bill.settled hsettlement.settled, ?_⟩
        refine h.completions.settled hsettlement.settled ?_ hstore hstreams
        intro now q hq b hb hst content qid x feed responses u hfin
        cases hcall with
        | release now rid hres => cases hq
        | capture now rid hcapture hres =>
            cases hq
            rw [h.captured_usage hp hcapture hres hb hfin]
            exact Or.inr rfl
    | requeue now hre hparked hs =>
        exact heffect _ (hs ▸ step_effects cfg.book h.fleet.chat _) rfl rfl

theorem StreamInv.acted {act : Act} (h : StreamInv cfg w) (hacted : Acted cfg w act w') :
    StreamInv cfg w' := by
  have hfleet := h.fleet.acted hacted
  -- the others are undisturbed by a caller without their token
  have hreads : ∀ {who : Caller} {s' : Store}, Effects who w.store s' →
      ∀ pid p, w.processes.get pid = some p →
      (∀ t, p.current.leaseToken = some t → who.token ≠ some t) → ReadInv cfg s' p := by
    intro who s' heff pid p hp hwho
    obtain ⟨t, ht, hlt⟩ := h.fleet.token pid p hp
    exact (h.reads pid p hp).undisturbed heff ht hlt (hwho t ht)
  cases hacted with
  | outside act who s' heff htoken hkeeps hends =>
      exact
        { fleet := hfleet, bill := h.bill.effects heff hkeeps.2
          reads := fun pid p hp => hreads heff pid p hp fun t _ => by simp [htoken]
          completions := h.completions.effects h.bill heff hends hkeeps.2
            (keepsStreams_of_processes rfl) }
  | settled act now tenantId reservationId capture s' hs =>
      have heff := step_effects cfg.book h.fleet.chat
        (.billing (settleCall cfg.book w.store now tenantId reservationId capture))
      rw [← hs] at heff
      have hsettled :=
        (settleCall_settlement cfg.book w.store now tenantId reservationId
          capture).settled
      refine
        { fleet := hfleet
          bill := hs ▸ h.bill.settled hsettled
          reads := fun pid p hp => hreads heff pid p hp fun t _ => by simp [Op.caller]
          completions := h.completions.settled hsettled ?_ hs
            (keepsStreams_of_processes rfl) }
      intro now' q hq b hb hst content qid x feed responses u hfin
      cases capture with
      | true =>
          obtain ⟨-, -, -, rfl⟩ := hq
          exact Or.inl rfl
      | false => cases hq
  | started act now e r r' s' hc heff =>
      refine
        { fleet := hfleet, bill := h.bill.effects heff rfl, reads := ?_
          completions := h.completions.effects h.bill heff rfl rfl ?_ }
      · intro pid p hp
        obtain ⟨-, rfl⟩ | hp := Table.get_insert_cases hp
        · exact hc.readInv now
        · exact hreads heff pid p hp fun t _ => by simp
      · intro pid p feed hp hfeed
        exact ⟨p, Table.get_insert_of_some hp _, rfl, hfeed⟩
  | worked pid env p p' s' hp hstep =>
      obtain ⟨hbill, hcompletions⟩ := h.worked hp hstep
      refine { fleet := hfleet, bill := hbill, reads := ?_, completions := hcompletions }
      intro qid q hq
      obtain ⟨rfl, x, hx, rfl⟩ | ⟨hne, hq⟩ := Table.get_modify_cases hq
      · obtain ⟨t, ht, -⟩ := h.fleet.token qid p hp
        exact (h.reads qid p hp).own h.fleet.chat ht hstep
      · obtain ⟨who, heff, htoken, -⟩ := (workerStep_wrote hstep).effects h.fleet.chat
        refine hreads heff qid q hq fun t ht => ?_
        obtain hown | hnone := htoken
        · intro hwho
          exact hne (h.fleet.distinct qid pid q p hq hp
            (ht.trans (hwho.symm.trans hown)))
        · simp [hnone]

theorem WorldOpening.streamInv (cfg : Config) (h : WorldOpening w) : StreamInv cfg w := by
  have hrequests : ∀ id, w.store.requests.get id = none := fun id => by
    rw [h.store.requests]
    exact Table.get_empty id
  refine
    { fleet := h.fleet, reads := ?_, completions := ?_
      bill := { held := ?_, sourced := ?_, recorded := ?_, captured := ?_ } }
  · intro id r rid hr
    simp [hrequests] at hr
  · exact fun i b hb hst => absurd hst (h.reservations i b hb)
  · exact fun i u id hu hsrc => absurd hsrc (h.usage i u hu id)
  · exact fun i b hb hst => absurd hst (h.reservations i b hb)
  · intro pid p hp
    simp [h.processes] at hp
  · intro e he
    simp [h.store.events, Table.empty] at he

/-- The stream invariant holds in every reachable world. -/
theorem streamInv_run (cfg : Config) (h : WorldOpening w) (acts : List Act) :
    StreamInv cfg (run (worldStep cfg) w acts) :=
  run_invariant
    (fun _ act hinv => hinv.acted (worldStep_acted cfg hinv.fleet.chat act))
    (h.streamInv cfg) acts

/-- In every reachable world the message of a running request holds
exactly the deltas logged for it, and every `completed` event is backed
by a stream the provider finished: it carries the whole text, the usage
recorded for the request is the one the provider reported, and what has
been captured from its hold is the accepted price of that usage. -/
theorem completion_whole_run {w : World} (h : WorldOpening w) (acts : List Act) :
    (∀ id r, (run (worldStep cfg) w acts).store.requests.get id = some r →
        r.status = .running →
        ∃ m, (run (worldStep cfg) w acts).store.messages.get r.messageId = some m
          ∧ m.requestId = some id
          ∧ m.content = deltas ((run (worldStep cfg) w acts).store.log id))
      ∧ ∀ e ∈ (run (worldStep cfg) w acts).store.events.rows, ∀ content,
          e.body = .completed content →
          ∃ pid p feed responses u, Finished cfg (run (worldStep cfg) w acts)
            e.inferenceRequestId content pid p feed responses u := by
  have hinv := streamInv_run cfg h acts
  refine ⟨fun id r hr hrun => ?_, hinv.completions⟩
  obtain ⟨m, hm, hlink, -, -, -, hcontent⟩ :=
    hinv.fleet.chat.link.linked id r hr (by rw [hrun]; rfl)
  exact ⟨m, hm, hlink, hcontent⟩

/-- The sample run completes with the text and the usage of its feed. -/
theorem completion_whole_run_sample :
    WorldOpening sampleWorld
      ∧ ∃ e ∈ (run (worldStep sampleConfig) sampleWorld sampleActs).store.events.rows,
          e.body = .completed "Hello"
          ∧ ∃ pid p feed responses u, Finished sampleConfig
            (run (worldStep sampleConfig) sampleWorld sampleActs) e.inferenceRequestId
            "Hello" pid p feed responses u := by
  refine ⟨sampleWorld_opening, ?_⟩
  obtain ⟨e, he, hbody⟩ : ∃ e ∈
      (run (worldStep sampleConfig) sampleWorld sampleActs).store.events.rows,
      e.body = .completed "Hello" := by
    decide +kernel
  exact ⟨e, he, hbody,
    (completion_whole_run sampleWorld_opening sampleActs).2 e he "Hello" hbody⟩

end Mosaic.Chat
