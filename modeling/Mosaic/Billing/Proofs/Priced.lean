/-
What a settlement charges and what it leaves alone.

`Writes` follows the money; this module follows the price: a capture
that is not given an amount charges what the accepted price makes of a
usage, the caller's or the recorded one, and a recorded usage is never
rewritten.
-/
import Mosaic.Billing.Proofs.Writes

namespace Mosaic.Billing

open Lib

variable {db db' : Db} {now : Nat} {fault : Fault}

/-- A reservation keeps its source. -/
def SameSource (r r' : BalanceReservation) : Prop :=
  r'.tenantId = r.tenantId ∧ r'.sourceType = r.sourceType ∧ r'.sourceId = r.sourceId

/-- The usage table after a charge was written back: same rows, same
usages. -/
def SameUsages (t t' : Table UsageRecord) : Prop :=
  ∃ (id : Nat) (f : UsageRecord → UsageRecord), t' = t.modify id f
    ∧ ∀ u, (f u).source = u.source ∧ (f u).usage = u.usage ∧ (f u).tenantId = u.tenantId

/-- A row of the new table is a row of the old one with the same usage. -/
theorem SameUsages.old {t t' : Table UsageRecord} (h : SameUsages t t') {i : Nat}
    {u' : UsageRecord} (hu' : t'.get i = some u') :
    ∃ u, t.get i = some u ∧ u'.source = u.source ∧ u'.usage = u.usage := by
  obtain ⟨id, f, rfl, hf⟩ := h
  obtain ⟨rfl, u, hu, rfl⟩ | ⟨-, hu⟩ := Table.get_modify_cases hu'
  · exact ⟨u, hu, (hf u).1, (hf u).2.1⟩
  · exact ⟨u', hu, rfl, rfl⟩

/-- And the other way round. -/
theorem SameUsages.new {t t' : Table UsageRecord} (h : SameUsages t t') {i : Nat}
    {u : UsageRecord} (hu : t.get i = some u) :
    ∃ u', t'.get i = some u' ∧ u'.source = u.source ∧ u'.usage = u.usage := by
  obtain ⟨id, f, rfl, hf⟩ := h
  by_cases hi : id = i
  · subst hi
    exact ⟨f u, by rw [Table.get_modify_self, hu]; rfl, (hf u).1, (hf u).2.1⟩
  · exact ⟨u, by rw [Table.get_modify_ne _ hi, hu], rfl, rfl⟩

/-- What a capture priced from a usage did. -/
structure Priced (src : Sources) (q : CaptureRequest) (db db' : Db)
    (r : BalanceReservation) (usageId : Nat) (u : UsageRecord)
    (price : PriceSnapshot) (charge : Money) : Prop where
  reservation : db.reservations.get q.reservationId = some r ∧ r.tenantId = q.tenantId
  accepted : priceForReservation src q.tenantId r = .ok price
  recorded : usageForReservation db q.tenantId r = .ok (usageId, u)
  charged : chargeForUsage price (q.usage.getD u.usage) = .ok charge
  usages : SameUsages db.usageRecords db'.usageRecords
  captured : db'.reservations = db.reservations
    ∨ ∃ r', Table.Replaced db.reservations db'.reservations q.reservationId r r'
      ∧ SameSource r r' ∧ r'.capturedAmountMinor = some (charge.amountMinor : Int)

theorem applyUsageCharge_ok {usageId : Nat} {u : UsageRecord} {price : PriceSnapshot}
    {charge : Money} (h : applyUsageCharge db usageId u price charge = .ok db') :
    SameUsages db.usageRecords db'.usageRecords ∧ db'.reservations = db.reservations := by
  simp only [applyUsageCharge, bind_eq_ok, pure_eq_ok] at h
  obtain ⟨label, -, -, -, rfl⟩ := h
  exact ⟨⟨usageId, _, rfl, fun u => ⟨rfl, rfl, rfl⟩⟩, rfl⟩

theorem capture_priced {src : Sources} {q : CaptureRequest} {x : CaptureResult × Db}
    (h : capture now fault src q db = .ok x) (hq : q.actual = none) :
    ∃ r usageId u price charge, Priced src q db x.2 r usageId u price charge := by
  simp only [capture, bind_eq_ok, mapError_eq_ok] at h
  obtain ⟨-, -, -, -, r, hr, w, hw, -, -, ⟨actual, priced⟩, hamount, -, -, -, -, d, hd, h⟩
    := h
  have hamount : ∃ price usageId u, priceForReservation src q.tenantId r = .ok price
      ∧ usageForReservation db q.tenantId r = .ok (usageId, u)
      ∧ chargeForUsage price (q.usage.getD u.usage) = .ok actual
      ∧ priced = some (usageId, u, price) := by
    simp only [captureAmount, hq] at hamount
    split at hamount
    · next habsurd => cases habsurd
    · simp only [bind_eq_ok, pure_eq_ok, Prod.mk.injEq] at hamount
      obtain ⟨price, hprice, ⟨usageId, u⟩, hu, charge, hcharge, rfl, rfl⟩ := hamount
      exact ⟨price, usageId, u, hprice, hu, hcharge, rfl⟩
  obtain ⟨price, usageId, u, hprice, hu, hcharge, rfl⟩ := hamount
  refine ⟨r, usageId, u, price, actual, ?_⟩
  split at h
  · simp only [bind_eq_ok, pure_eq_ok] at h
    obtain ⟨db₁, happly, rfl⟩ := h
    obtain ⟨husages, hsame⟩ := applyUsageCharge_ok happly
    exact { reservation := lockReservation_ok hr, accepted := hprice, recorded := hu
            charged := hcharge, usages := husages, captured := Or.inl hsame }
  · next hfresh =>
      simp only [bind_eq_ok, pure_eq_ok] at h
      obtain ⟨-, -, -, -, db₁, happly, rfl⟩ := h
      obtain ⟨husages, hsame⟩ := applyUsageCharge_ok happly
      obtain ⟨-, -, -, -, hcharged, -⟩ := decideCapture_fresh hd (by simpa using hfresh)
      refine { reservation := lockReservation_ok hr, accepted := hprice, recorded := hu
               charged := hcharge, usages := husages, captured := Or.inr ?_ }
      refine ⟨{ r with status := .committed, capturedAmountMinor := some d.chargedMinor
                       committedAt := some now }, ?_, ⟨rfl, rfl, rfl⟩, by rw [hcharged]⟩
      rw [hsame]
      exact Table.replaced_modify (lockReservation_ok hr).1 _

/-- A release keeps usages and captured amounts. -/
theorem release_frame {tenantId reservationId : Nat} {x : ReleaseResult × Db}
    (h : release now fault tenantId reservationId db = .ok x) :
    x.2.usageRecords = db.usageRecords
      ∧ (x.2.reservations = db.reservations
        ∨ ∃ r r', Table.Replaced db.reservations x.2.reservations reservationId r r'
          ∧ SameSource r r' ∧ r'.capturedAmountMinor = r.capturedAmountMinor) := by
  simp only [release, bind_eq_ok, mapError_eq_ok] at h
  obtain ⟨-, -, r, hr, w, hw, -, -, d, hd, h⟩ := h
  split at h
  · rw [pure_eq_ok] at h
    subst h
    exact ⟨rfl, Or.inl rfl⟩
  · simp only [bind_eq_ok, pure_eq_ok] at h
    obtain ⟨-, -, rfl⟩ := h
    exact ⟨rfl, Or.inr ⟨r, _, Table.replaced_modify (lockReservation_ok hr).1 _,
      ⟨rfl, rfl, rfl⟩, rfl⟩⟩

/-- A release writes at most its own row, which was pending. -/
theorem release_row {tenantId reservationId : Nat} {x : ReleaseResult × Db}
    (h : release now fault tenantId reservationId db = .ok x) :
    x.2.reservations = db.reservations
      ∨ ∃ r, r.tenantId = tenantId ∧ r.status = .pending
        ∧ Table.Replaced db.reservations x.2.reservations reservationId r
          { r with status := .released, releasedAt := some now } := by
  simp only [release, bind_eq_ok, mapError_eq_ok] at h
  obtain ⟨-, -, r, hr, w, hw, -, -, d, hd, h⟩ := h
  split at h
  · rw [pure_eq_ok] at h
    subst h
    exact Or.inl rfl
  · next hfresh =>
      simp only [bind_eq_ok, pure_eq_ok] at h
      obtain ⟨-, -, rfl⟩ := h
      obtain ⟨hrow, htenant⟩ := lockReservation_ok hr
      have hpending := (decideRelease_fresh hd (by simpa using hfresh)).1
      exact Or.inr ⟨r, htenant, hpending, Table.replaced_modify hrow _⟩

/-- A capture writes at most its own row, which was pending and live. -/
theorem capture_row {src : Sources} {q : CaptureRequest} {x : CaptureResult × Db}
    (h : capture now fault src q db = .ok x) :
    x.2.reservations = db.reservations
      ∨ ∃ r amount, r.tenantId = q.tenantId ∧ r.status = .pending ∧ now < r.expiresAt
        ∧ Table.Replaced db.reservations x.2.reservations q.reservationId r
          { r with status := .committed, capturedAmountMinor := some amount
                   committedAt := some now } := by
  simp only [capture, bind_eq_ok, mapError_eq_ok, raiseIf_eq_ok] at h
  obtain ⟨-, -, -, -, r, hr, w, hw, -, -, ⟨actual, priced⟩, -, -, -, -, hlive, d, hd, h⟩
    := h
  split at h
  · simp only [bind_eq_ok, pure_eq_ok] at h
    obtain ⟨db', happly, rfl⟩ := h
    obtain ⟨us, rfl⟩ := applyPricedUsage_ok happly
    exact Or.inl rfl
  · next hfresh =>
      simp only [bind_eq_ok, pure_eq_ok] at h
      obtain ⟨-, -, -, -, db', happly, rfl⟩ := h
      obtain ⟨us, rfl⟩ := applyPricedUsage_ok happly
      obtain ⟨hrow, htenant⟩ := lockReservation_ok hr
      have hpending := (decideCapture_fresh hd (by simpa using hfresh)).1
      have hfuture : now < r.expiresAt := by
        simpa [hpending, reservationIsExpired] using hlive
      exact Or.inr ⟨r, d.chargedMinor, htenant, hpending, hfuture,
        Table.replaced_modify hrow _⟩

/-- The pricing rules raise nothing but the invariant error. -/
theorem positiveInt_raises (value : Json) :
    Raises (· = .invariant) (positiveInt value) := by
  refine .bind (.orRaise rfl) fun n _ => ?_
  exact .bind (.raiseIf fun _ => rfl) fun _ _ => .pure _

theorem parseComponents_raises (l : List (String × Json)) :
    Raises (· = .invariant) (parseComponents l) := by
  induction l with
  | nil => exact .pure _
  | cons c rest ih =>
      refine .bind (.orRaise rfl) fun meter _ => ?_
      refine .bind (positiveInt_raises _) fun r _ => ?_
      exact .bind ih fun _ _ => .pure _

theorem parseLocalTariff_raises (price : PriceSnapshot) :
    Raises (· = .invariant) (parseLocalTariff price) := by
  refine .bind (.raiseIf fun _ => rfl) fun _ _ => ?_
  refine .bind (.raiseIf fun _ => rfl) fun _ _ => ?_
  refine .bind (.raiseIf fun _ => rfl) fun _ _ => ?_
  refine .bind (.raiseIf fun _ => rfl) fun _ _ => ?_
  refine .bind (positiveInt_raises _) fun _ _ => ?_
  refine .bind (positiveInt_raises _) fun _ _ => ?_
  refine .bind (.raiseIf fun _ => rfl) fun _ _ => ?_
  refine .bind (.orRaise rfl) fun raw _ => ?_
  refine .bind (.raiseIf fun _ => rfl) fun _ _ => ?_
  exact .bind (parseComponents_raises raw) fun _ _ => .pure _

theorem chargeForUsage_raises (price : PriceSnapshot) (usage : BillingUsage) :
    Raises (· = .invariant) (chargeForUsage price usage) := by
  refine .bind (parseLocalTariff_raises price) fun tariff _ => ?_
  exact .bind (.raiseIf fun _ => rfl) fun _ _ => .pure _

theorem captureAmount_raises (src : Sources) (q : CaptureRequest) (r : BalanceReservation) :
    Raises (· = .invariant) (captureAmount src db q r) := by
  unfold captureAmount
  split
  · exact .pure _
  · refine .bind ?_ fun price _ => ?_
    · unfold priceForReservation
      dsimp only
      split
      · exact .bind (.orRaise rfl) fun _ _ => .orRaise rfl
      · split
        · exact .bind (.orRaise rfl) fun _ _ => .orRaise rfl
        · exact fun e he => (Except.error.inj he).symm
    · refine .bind ?_ fun y _ => ?_
      · unfold usageForReservation
        split
        · exact .orRaise rfl
        · split
          · exact .orRaise rfl
          · exact fun e he => (Except.error.inj he).symm
      · exact .bind (chargeForUsage_raises _ _) fun _ _ => .pure _

theorem applyPricedUsage_raises (priced : Option (Nat × UsageRecord × PriceSnapshot))
    (charge : Money) : Raises (· = .invariant) (applyPricedUsage db priced charge) := by
  unfold applyPricedUsage
  split
  · exact .pure _
  · refine .bind ?_ fun label _ => ?_
    · exact .bind (.raiseIf fun _ => rfl) fun _ _ => .pure _
    · exact .bind (.raiseIf fun _ => rfl) fun _ _ => .pure _

/-- A capture raises `RESERVATION_EXPIRED` of a hold that is past its
expiry. -/
theorem capture_raises {src : Sources} {q : CaptureRequest} :
    Raises (fun e => ∀ message, e = .conflict RESERVATION_EXPIRED message →
      ∃ r, db.reservations.get q.reservationId = some r ∧ r.status = .pending
        ∧ r.expiresAt ≤ now) (capture now fault src q db) := by
  have hother : ∀ {e : BillingError} {P : Prop},
      (∀ message, e ≠ .conflict RESERVATION_EXPIRED message) →
      ∀ message, e = .conflict RESERVATION_EXPIRED message → P :=
    fun h message he => absurd he (h message)
  have hinvariant : ∀ {e : BillingError} {P : Prop}, e = .invariant →
      ∀ message, e = .conflict RESERVATION_EXPIRED message → P := by
    rintro e P rfl message he
    cases he
  have hcode : ∀ {code m m' : String}, code ≠ RESERVATION_EXPIRED →
      BillingError.conflict code m ≠ .conflict RESERVATION_EXPIRED m' :=
    fun hne he => hne (BillingError.conflict.inj he).1
  refine .bind (.raiseIf fun _ => hother fun _ he => by cases he) fun _ _ => ?_
  refine .bind (.raiseIf fun _ => hother fun _ he => by cases he) fun _ _ => ?_
  refine .bind (.orRaise (hother fun _ he => by cases he)) fun r hr => ?_
  refine .bind (.orRaise (hother fun _ he => by cases he)) fun wallet _ => ?_
  refine .bind (.raiseIf fun _ => hinvariant rfl) fun _ _ => ?_
  refine .bind ((captureAmount_raises src q r).mono fun _ => hinvariant) fun y _ => ?_
  refine .bind (.raiseIf fun _ => hother fun _ => hcode (by decide)) fun _ _ => ?_
  refine .bind (.raiseIf fun hexpired message _ => ?_) fun _ _ => ?_
  · refine ⟨r, (lockReservation_ok hr).1, hexpired.1, ?_⟩
    simpa [reservationIsExpired] using hexpired.2
  refine .bind ?_ fun d _ => ?_
  · intro e he
    obtain ⟨e₀, -, rfl⟩ := mapError_eq_error.mp he
    refine hother fun message => ?_
    unfold captureTransitionError
    split
    · exact fun he => by cases he
    · split
      · exact hcode (by decide)
      · exact hcode (by decide)
      · exact hcode (by decide)
      · split
        · exact hcode (by decide)
        · exact fun he => by cases he
  · split
    · exact .bind ((applyPricedUsage_raises _ _).mono fun _ => hinvariant) fun _ _ => .pure _
    · refine .bind (.raiseIf fun _ => hother fun _ => hcode (by decide)) fun _ _ => ?_
      refine .bind (.raiseIf fun _ => hinvariant rfl) fun _ _ => ?_
      exact .bind ((applyPricedUsage_raises _ _).mono fun _ => hinvariant) fun _ _ => .pure _

/-- The acceptance hold of a source without one is a new row. -/
theorem reserveInTransaction_fresh {tenantId sourceId expiresAt : Nat}
    {sourceType : String} {price : PriceSnapshot} {res : ReservationResult}
    (hnormal : normalizeSourceType sourceType = .ok sourceType)
    (hfresh : findReservationBySource db tenantId sourceType sourceId = none)
    (h : reserveInTransaction now tenantId sourceType sourceId price expiresAt db
      = .ok (res, db')) :
    db'.usageRecords = db.usageRecords ∧ res.reservationId = db.reservations.nextId
      ∧ ∃ b, db'.reservations = db.reservations.insert b ∧ b.tenantId = tenantId
        ∧ b.sourceType = sourceType ∧ b.sourceId = sourceId
        ∧ b.capturedAmountMinor = none ∧ b.status = .pending := by
  simp only [reserveInTransaction, bind_eq_ok, hnormal] at h
  obtain ⟨amount, -, st, hst, exp, -, htxn⟩ := h
  obtain rfl : sourceType = st := Except.ok.inj hst
  simp only [reserveInTxn, hfresh] at htxn
  simp only [bind_eq_ok, pure_eq_ok, openHold, Prod.mk.injEq] at htxn
  obtain ⟨⟨walletId, w⟩, -, -, -, -, -, -, -, rfl, rfl⟩ := htxn
  exact ⟨rfl, rfl, _, rfl, rfl, rfl, rfl, rfl, rfl⟩

end Mosaic.Billing
