/-
Requests and their money: the hold, the recorded usage, the charge.

`BillInv` ties the billing rows of chat to the requests: a request's
reservation is its own, a usage is recorded only for a request that
succeeded, and an amount is captured only where a usage is recorded. It
is kept by every effect and by the settlements the system makes, and is
what makes the charge of a completed request a function of the one usage
recorded for it.
-/
import Mosaic.Billing.Proofs.Priced
import Mosaic.Chat.Proofs.Process

namespace Mosaic.Chat

open Lib Providers

variable {who : Caller} {s s' : Store} {id : Nat} {r : InferenceRequest}
  {book : Catalog.PriceBook}

-- ========================================================= request rows

/-- What happened to the request row `r` is over when it is final. -/
theorem Effect.final_kept (heff : Effect who s s') (hr : s.requests.get id = some r)
    (hfinal : r.status.final = true) : s'.requests.get id = some r := by
  have hframe : ∀ {j y y'}, Table.Replaced s.requests s'.requests j y y' →
      y.status.active = true → s'.requests.get id = some r := by
    intro j y y' hrep hact
    have hne : id ≠ j := by
      rintro rfl
      obtain rfl := Option.some.inj (hr.symm.trans hrep.old)
      simp [RequestStatus.not_final_of_active hact] at hfinal
    rw [hrep.other hne, hr]
  cases heff with
  | quiet h => rw [h.requests, hr]
  | opened c h => rw [h.requests, hr]
  | accepted cid mid c c' x m e o h =>
      rw [h.requests]
      exact Table.get_insert_of_some hr _
  | moved j y y' h hmove => exact hframe h.requests h.wasActive
  | delta j y y' m m' e text h => exact hframe h.requests (by rw [h.running.1]; rfl)
  | ended j y y' c c' m m' e h => exact hframe h.requests h.wasActive

theorem Effects.final_kept (heff : Effects who s s') (hr : s.requests.get id = some r)
    (hfinal : r.status.final = true) : s'.requests.get id = some r := by
  cases heff with
  | one heff => exact heff.final_kept hr hfinal
  | sweep _ hsweep =>
      induction hsweep with
      | refl => exact hr
      | tail _ hswept ih => exact hswept.effect.final_kept ih hfinal

/-- A request keeps its identity. -/
theorem Effect.same_request (heff : Effect who s s') (hr : s.requests.get id = some r) :
    ∃ r', s'.requests.get id = some r' ∧ SameRequest r r' := by
  have hrefl : SameRequest r r := ⟨rfl, rfl, rfl, rfl, rfl, rfl, rfl⟩
  have hframe : ∀ {j y y'}, Table.Replaced s.requests s'.requests j y y' →
      SameRequest y y' → ∃ r', s'.requests.get id = some r' ∧ SameRequest r r' := by
    intro j y y' hrep hsame
    by_cases hj : id = j
    · subst hj
      obtain rfl := Option.some.inj (hr.symm.trans hrep.old)
      exact ⟨y', hrep.new, hsame⟩
    · exact ⟨r, by rw [hrep.other hj, hr], hrefl⟩
  cases heff with
  | quiet h => exact ⟨r, by rw [h.requests, hr], hrefl⟩
  | opened c h => exact ⟨r, by rw [h.requests, hr], hrefl⟩
  | accepted cid mid c c' x m e o h =>
      exact ⟨r, by rw [h.requests]; exact Table.get_insert_of_some hr _, hrefl⟩
  | moved j y y' h hmove => exact hframe h.requests h.same
  | delta j y y' m m' e text h => exact hframe h.requests h.same
  | ended j y y' c c' m m' e h => exact hframe h.requests h.same

/-- What an effect that makes no billing call does to the billing rows. -/
theorem Effect.billing_cases (heff : Effect who s s') (hwho : who.settles = false) :
    (s'.billing = s.billing ∧ s'.requests.nextId = s.requests.nextId)
      ∨ (∃ cid mid c c' r m e o, Accepted s s' cid mid c c' r m e o)
      ∨ (∃ id r r', Table.Replaced s.requests s'.requests id r r'
          ∧ r'.status = .succeeded ∧ Recorded s s' id) := by
  cases heff with
  | quiet h hb =>
      obtain hb | ⟨hsettles, -⟩ := hb
      · exact Or.inl ⟨hb, by rw [h.requests]⟩
      · simp [hwho] at hsettles
  | opened c h => exact Or.inl ⟨h.billing, by rw [h.requests]⟩
  | accepted cid mid c c' r m e o h => exact Or.inr (Or.inl ⟨cid, mid, c, c', r, m, e, o, h⟩)
  | moved j y y' h hmove => exact Or.inl ⟨h.billing, h.requests.size⟩
  | delta j y y' m m' e text h => exact Or.inl ⟨h.billing, h.requests.size⟩
  | ended j y y' c c' m m' e h =>
      obtain hb | ⟨hst, hrec⟩ := h.billing
      · exact Or.inl ⟨hb, h.requests.size⟩
      · exact Or.inr (Or.inr ⟨j, y, y', h.requests, hst, hrec⟩)

-- ============================================================ invariant

structure BillInv (s : Store) : Prop where
  /-- The reservation of a request is held for it. -/
  held : ∀ id r reservationId, s.requests.get id = some r →
    r.billingReservationId = some reservationId →
    ∃ b, s.billing.reservations.get reservationId = some b
      ∧ b.sourceType = "chat_inference" ∧ b.sourceId = id
  /-- No reservation runs ahead of the requests. -/
  sourced : ∀ i b, s.billing.reservations.get i = some b →
    b.sourceType = "chat_inference" → b.sourceId < s.requests.nextId
  /-- A usage is recorded for a request that succeeded. -/
  recorded : ∀ i u id, s.billing.usageRecords.get i = some u →
    u.source = .inferenceRequest id →
    ∃ r, s.requests.get id = some r ∧ r.status = .succeeded
  /-- An amount is captured where a usage is recorded. -/
  captured : ∀ i b, s.billing.reservations.get i = some b →
    b.sourceType = "chat_inference" → b.capturedAmountMinor ≠ none →
    ∃ j u, s.billing.usageRecords.get j = some u
      ∧ u.source = .inferenceRequest b.sourceId

theorem chatInference_normal :
    Billing.normalizeSourceType "chat_inference" = .ok "chat_inference" := by
  decide +kernel

/-- The hold of an acceptance is a new row, of the new request. -/
theorem BillInv.fresh_hold (h : BillInv s) {cid mid : Nat} {c c' : Conversation}
    {x : InferenceRequest} {m : Message} {e : StreamEvent} {o : OutboxEvent}
    (ha : Accepted s s' cid mid c c' x m e o) :
    s'.billing.usageRecords = s.billing.usageRecords
      ∧ x.billingReservationId = some s.billing.reservations.nextId
      ∧ ∃ b, s'.billing.reservations = s.billing.reservations.insert b
        ∧ b.tenantId = x.tenantId ∧ b.sourceType = "chat_inference"
        ∧ b.sourceId = s.requests.nextId ∧ b.capturedAmountMinor = none
        ∧ b.status = .pending := by
  obtain ⟨now, price, expiresAt, res, hreserve, hres⟩ := ha.hold
  have hfree : Billing.findReservationBySource s.billing x.tenantId "chat_inference"
      s.requests.nextId = none := by
    cases hfind : Billing.findReservationBySource s.billing x.tenantId "chat_inference"
        s.requests.nextId with
    | none => rfl
    | some y =>
        obtain ⟨hget, hp⟩ := Table.find_some hfind
        simp only [Bool.and_eq_true, beq_iff_eq] at hp
        have := h.sourced y.1 y.2 hget hp.1.2
        omega
  obtain ⟨husage, hrid, hrow⟩ :=
    Billing.reserveInTransaction_fresh chatInference_normal hfree hreserve
  exact ⟨husage, hrid ▸ hres, hrow⟩

theorem BillInv.accepted (h : BillInv s) {cid mid : Nat} {c c' : Conversation}
    {x : InferenceRequest} {m : Message} {e : StreamEvent} {o : OutboxEvent}
    (ha : Accepted s s' cid mid c c' x m e o) : BillInv s' := by
  obtain ⟨husage, hrid, b, hins, -, hst, hsid, hcap, -⟩ := h.fresh_hold ha
  refine { held := ?_, sourced := ?_, recorded := ?_, captured := ?_ }
  · intro id r rid hr hrr
    rw [ha.requests] at hr
    rw [hins]
    obtain ⟨rfl, rfl⟩ | hr := Table.get_insert_cases hr
    · rw [hrid, Option.some.injEq] at hrr
      subst hrr
      exact ⟨b, Table.get_insert_self _ _, hst, hsid⟩
    · obtain ⟨y, hy, hrest⟩ := h.held id r rid hr hrr
      exact ⟨y, Table.get_insert_of_some hy _, hrest⟩
  · intro i y hy hyst
    rw [hins] at hy
    rw [ha.requests, Table.nextId_insert]
    obtain ⟨-, rfl⟩ | hy := Table.get_insert_cases hy
    · omega
    · have := h.sourced i y hy hyst
      omega
  · intro i u id hu husrc
    rw [husage] at hu
    obtain ⟨r, hr, hsucc⟩ := h.recorded i u id hu husrc
    exact ⟨r, by rw [ha.requests]; exact Table.get_insert_of_some hr _, hsucc⟩
  · intro i y hy hyst hycap
    rw [hins] at hy
    rw [husage]
    obtain ⟨-, rfl⟩ | hy := Table.get_insert_cases hy
    · exact absurd hcap hycap
    · exact h.captured i y hy hyst hycap

/-- Requests that stay and usages that are only added, for a request that
succeeded, keep the invariant. -/
theorem BillInv.extend (h : BillInv s)
    (hheld : ∀ id r rid, s'.requests.get id = some r →
      r.billingReservationId = some rid →
      ∃ r, s.requests.get id = some r ∧ r.billingReservationId = some rid)
    (hsize : s'.requests.nextId = s.requests.nextId)
    (hkept : ∀ id r, s.requests.get id = some r → r.status = .succeeded →
      s'.requests.get id = some r)
    (hreservations : s'.billing.reservations = s.billing.reservations)
    (husages : s'.billing.usageRecords = s.billing.usageRecords
      ∨ ∃ id r u, s'.requests.get id = some r ∧ r.status = .succeeded
        ∧ u.source = .inferenceRequest id
        ∧ s'.billing.usageRecords = s.billing.usageRecords.insert u) : BillInv s' where
  held := by
    intro id r rid hr hrid
    obtain ⟨x, hx, hxr⟩ := hheld id r rid hr hrid
    rw [hreservations]
    exact h.held id x rid hx hxr
  sourced := by
    rw [hreservations, hsize]
    exact h.sourced
  recorded := by
    intro i u id hu husrc
    have hold : s.billing.usageRecords.get i = some u →
        ∃ r, s'.requests.get id = some r ∧ r.status = .succeeded := by
      intro hu
      obtain ⟨r, hr, hsucc⟩ := h.recorded i u id hu husrc
      exact ⟨r, hkept id r hr hsucc, hsucc⟩
    obtain husages | ⟨j, r, v, hr, hsucc, hv, husages⟩ := husages
    · exact hold (husages ▸ hu)
    · rw [husages] at hu
      obtain ⟨-, rfl⟩ | hu := Table.get_insert_cases hu
      · rw [hv, Billing.UsageSource.inferenceRequest.injEq] at husrc
        exact ⟨r, husrc ▸ hr, hsucc⟩
      · exact hold hu
  captured := by
    intro i b hb hst hcap
    rw [hreservations] at hb
    obtain ⟨j, u, hu, husrc⟩ := h.captured i b hb hst hcap
    obtain husages | ⟨-, -, v, -, -, -, husages⟩ := husages
    · exact ⟨j, u, by rw [husages, hu], husrc⟩
    · exact ⟨j, u, by rw [husages]; exact Table.get_insert_of_some hu _, husrc⟩

theorem BillInv.effect (h : BillInv s) (heff : Effect who s s')
    (hwho : who.settles = false) : BillInv s' := by
  have hkept : ∀ id r, s.requests.get id = some r → r.status = .succeeded →
      s'.requests.get id = some r :=
    fun id r hr hsucc => heff.final_kept hr (by rw [hsucc]; rfl)
  have hheld : s'.requests.nextId = s.requests.nextId → ∀ id r rid,
      s'.requests.get id = some r → r.billingReservationId = some rid →
      ∃ r, s.requests.get id = some r ∧ r.billingReservationId = some rid := by
    intro hsize id r' rid hr' hrid
    have hlt := Table.lt_nextId hr'
    rw [hsize] at hlt
    obtain ⟨r, hr⟩ : ∃ r, s.requests.get id = some r := ⟨_, List.getElem?_eq_getElem hlt⟩
    obtain ⟨x, hx, hsame⟩ := heff.same_request hr
    obtain rfl := Option.some.inj (hr'.symm.trans hx)
    exact ⟨r, hr, hsame.reservation.symm.trans hrid⟩
  obtain ⟨hb, hsize⟩ | ⟨cid, mid, c, c', x, m, e, o, ha⟩ | ⟨j, y, y', hrep, hsucc, hrec⟩ :=
    heff.billing_cases hwho
  · exact h.extend (hheld hsize) hsize hkept (by rw [hb]) (Or.inl (by rw [hb]))
  · exact h.accepted ha
  · refine h.extend (hheld hrep.size) hrep.size hkept ?_ ?_
    · obtain hb | ⟨u, -, hb⟩ := hrec
      · rw [hb]
      · rw [hb]
    · obtain hb | ⟨u, hu, hb⟩ := hrec
      · exact Or.inl (by rw [hb])
      · exact Or.inr ⟨j, y', u, hrep.new, hsucc, hu, by rw [hb]⟩

theorem BillInv.effects (h : BillInv s) (heff : Effects who s s')
    (hwho : who.settles = false) : BillInv s' := by
  cases heff with
  | one heff => exact h.effect heff hwho
  | sweep _ hsweep =>
      induction hsweep with
      | refl => exact h
      | tail _ hswept ih => exact ih.effect hswept.effect rfl

-- ========================================================== settlements

/-- The settlements of the system: a release, or a capture without an
amount of its own. -/
inductive Settlement (book : Catalog.PriceBook) (s : Store) : Billing.Call → Prop
  | release (now tenantId reservationId : Nat) :
      Settlement book s (.release now .none tenantId reservationId)
  | capture (now tenantId reservationId : Nat) (usage : Option Billing.BillingUsage) :
      Settlement book s
        (.capture now .none (s.sources book) { tenantId, reservationId, usage })

theorem settleCall_settlement (book : Catalog.PriceBook) (s : Store)
    (now tenantId reservationId : Nat) (capture : Bool) :
    Settlement book s (settleCall book s now tenantId reservationId capture) := by
  cases capture with
  | true => exact Settlement.capture now tenantId reservationId none
  | false => exact Settlement.release now tenantId reservationId

/-- What a settlement does to the billing rows. -/
inductive Settled (book : Catalog.PriceBook) (s : Store) (call : Billing.Call)
    (db : Billing.Db) : Prop
  | nothing (hreservations : db.reservations = s.billing.reservations)
      (husages : db.usageRecords = s.billing.usageRecords)
  | released (id : Nat) (b b' : Billing.BalanceReservation)
      (husages : db.usageRecords = s.billing.usageRecords)
      (hrep : Table.Replaced s.billing.reservations db.reservations id b b')
      (hsame : Billing.SameSource b b')
      (hcaptured : b'.capturedAmountMinor = b.capturedAmountMinor)
  | priced (q : Billing.CaptureRequest) (b : Billing.BalanceReservation)
      (usageId : Nat) (u : Billing.UsageRecord) (price : Billing.PriceSnapshot)
      (charge : Billing.Money)
      (hcall : ∃ now, call = .capture now .none (s.sources book) q)
      (h : Billing.Priced (s.sources book) q s.billing db b usageId u price charge)

theorem Settlement.settled {call : Billing.Call} (h : Settlement book s call) :
    Settled book s call (Billing.step s.billing call) := by
  unfold Billing.step
  cases h with
  | release now tenantId reservationId =>
      simp only [Billing.Call.perform]
      split
      · next db hdb =>
          simp only [bind_eq_ok, pure_eq_ok] at hdb
          obtain ⟨x, hx, rfl⟩ := hdb
          obtain ⟨husages, hsame | ⟨b, b', hrep, hsrc, hcap⟩⟩ := Billing.release_frame hx
          · exact Settled.nothing hsame husages
          · exact Settled.released reservationId b b' husages hrep hsrc hcap
      · exact Settled.nothing rfl rfl
  | capture now tenantId reservationId usage =>
      simp only [Billing.Call.perform]
      split
      · next db hdb =>
          simp only [bind_eq_ok, pure_eq_ok] at hdb
          obtain ⟨x, hx, rfl⟩ := hdb
          obtain ⟨b, usageId, u, price, charge, hpriced⟩ := Billing.capture_priced hx rfl
          exact Settled.priced _ b usageId u price charge ⟨now, rfl⟩ hpriced
      · exact Settled.nothing rfl rfl

/-- The usage a capture of a chat hold reads is one of its request. -/
theorem usageForReservation_source {db : Billing.Db} {tenantId usageId : Nat}
    {b : Billing.BalanceReservation} {u : Billing.UsageRecord}
    (h : Billing.usageForReservation db tenantId b = .ok (usageId, u))
    (hst : b.sourceType = "chat_inference") :
    db.usageRecords.get usageId = some u
      ∧ u.source = .inferenceRequest b.sourceId := by
  rw [Billing.usageForReservation, if_pos hst, orRaise_eq_ok] at h
  obtain ⟨hget, hp⟩ := Table.find_some h
  simp only [Bool.and_eq_true, beq_iff_eq] at hp
  exact ⟨hget, hp.2⟩

/-- A replaced reservation keeps every reservation's source. -/
theorem Replaced.source {t t' : Table Billing.BalanceReservation} {i j : Nat}
    {b b' y : Billing.BalanceReservation} (hrep : Table.Replaced t t' i b b')
    (hsame : Billing.SameSource b b') (hy : t.get j = some y) :
    ∃ y', t'.get j = some y' ∧ y'.sourceType = y.sourceType ∧ y'.sourceId = y.sourceId := by
  by_cases hj : j = i
  · subst hj
    obtain rfl := Option.some.inj (hy.symm.trans hrep.old)
    exact ⟨b', hrep.new, hsame.2⟩
  · exact ⟨y, by rw [hrep.other hj, hy], rfl, rfl⟩

theorem BillInv.settled {call : Billing.Call} {db : Billing.Db} (h : BillInv s)
    (hsettled : Settled book s call db) : BillInv { s with billing := db } := by
  cases hsettled with
  | nothing hreservations husages =>
      exact h.extend (fun id r rid hr hrid => ⟨r, hr, hrid⟩) rfl (fun _ _ hr _ => hr)
        hreservations (Or.inl husages)
  | released j b b' husages hrep hsame hcap =>
      refine { held := ?_, sourced := ?_, recorded := ?_, captured := ?_ }
      · intro id r rid hr hrid
        obtain ⟨y, hy, hyst, hysid⟩ := h.held id r rid hr hrid
        obtain ⟨y', hy', hy'st, hy'sid⟩ := Replaced.source hrep hsame hy
        exact ⟨y', hy', hy'st.trans hyst, hy'sid.trans hysid⟩
      · intro i y hy hst
        obtain ⟨rfl, rfl⟩ | ⟨-, hy⟩ := hrep.cases hy
        · have := h.sourced i b hrep.old (hsame.2.1.symm.trans hst)
          exact hsame.2.2 ▸ this
        · exact h.sourced i y hy hst
      · rw [husages]
        exact h.recorded
      · intro i y hy hst hycap
        rw [husages]
        obtain ⟨rfl, rfl⟩ | ⟨-, hy⟩ := hrep.cases hy
        · rw [hsame.2.2]
          exact h.captured i b hrep.old (hsame.2.1.symm.trans hst) (hcap ▸ hycap)
        · exact h.captured i y hy hst hycap
  | priced q b usageId u price charge hcall hp =>
      have hrecorded : ∀ i u' id, db.usageRecords.get i = some u' →
          u'.source = .inferenceRequest id →
          ∃ r, s.requests.get id = some r ∧ r.status = .succeeded := by
        intro i u' id hu' husrc
        obtain ⟨v, hv, hvsrc, -⟩ := hp.usages.old hu'
        exact h.recorded i v id hv (hvsrc.symm.trans husrc)
      have hfind : ∀ sid, (∃ j v, s.billing.usageRecords.get j = some v
          ∧ v.source = .inferenceRequest sid) →
          ∃ j v, db.usageRecords.get j = some v ∧ v.source = .inferenceRequest sid := by
        rintro sid ⟨j, v, hv, hvsrc⟩
        obtain ⟨v', hv', hsrc, -⟩ := hp.usages.new hv
        exact ⟨j, v', hv', hsrc.trans hvsrc⟩
      obtain hsame | ⟨b', hrep, hsame, hcap⟩ := hp.captured
      · refine { held := ?_, sourced := ?_, recorded := hrecorded, captured := ?_ }
        · rw [hsame]
          exact h.held
        · rw [hsame]
          exact h.sourced
        · intro i y hy hst hycap
          rw [hsame] at hy
          exact hfind _ (h.captured i y hy hst hycap)
      · refine { held := ?_, sourced := ?_, recorded := hrecorded, captured := ?_ }
        · intro id r rid hr hrid
          obtain ⟨y, hy, hyst, hysid⟩ := h.held id r rid hr hrid
          obtain ⟨y', hy', hy'st, hy'sid⟩ := Replaced.source hrep hsame hy
          exact ⟨y', hy', hy'st.trans hyst, hy'sid.trans hysid⟩
        · intro i y hy hst
          obtain ⟨rfl, rfl⟩ | ⟨-, hy⟩ := hrep.cases hy
          · have := h.sourced _ b hrep.old (hsame.2.1.symm.trans hst)
            exact hsame.2.2 ▸ this
          · exact h.sourced i y hy hst
        · intro i y hy hst hycap
          obtain ⟨rfl, rfl⟩ | ⟨-, hy⟩ := hrep.cases hy
          · rw [hsame.2.2]
            obtain ⟨hu, husrc⟩ :=
              usageForReservation_source hp.recorded (hsame.2.1.symm.trans hst)
            exact hfind _ ⟨usageId, u, hu, husrc⟩
          · exact hfind _ (h.captured i y hy hst hycap)

end Mosaic.Chat
