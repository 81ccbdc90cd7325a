/-
The accounts of the billed sources.

# The three books

A request or a job is billed in three places: the reservation held for
it, the usage recorded for it and the ledger. `Accounts` says how the
first two agree: a reservation is priced by its source and sits in a
wallet of its tenant and currency, a recorded usage belongs to a
reservation and carries the price of its own measures, and an amount is
captured only as the charge recorded. `Conserved` is about the third.

# What a settlement comes to

Under the two laws the outcome of settling a pending hold is decided by
its own rows: a release goes through, and a capture of the recorded usage
raises in three ways only.
-/
import Mosaic.Billing.Proofs.Conservation
import Mosaic.Billing.Proofs.Priced

namespace Mosaic.Billing

open Lib

variable {src src' : Sources} {initial db db' : Db} {now : Nat}

-- =============================================================== the law

/-- The source column a usage record of the reservation carries. -/
def BalanceReservation.usageSource? (b : BalanceReservation) : Option UsageSource :=
  if b.sourceType = "chat_inference" then some (.inferenceRequest b.sourceId)
  else if b.sourceType = "generation" then some (.generationJob b.sourceId)
  else none

theorem usageSource?_eq_some {b : BalanceReservation} {source : UsageSource} :
    b.usageSource? = some source
      ↔ (b.sourceType = "chat_inference" ∧ source = .inferenceRequest b.sourceId)
        ∨ (b.sourceType = "generation" ∧ source = .generationJob b.sourceId) := by
  unfold BalanceReservation.usageSource?
  by_cases hchat : b.sourceType = "chat_inference"
  · simp [hchat, eq_comm]
  · by_cases hgen : b.sourceType = "generation"
    · simp [hgen, eq_comm]
    · simp [hchat, hgen]

/-- The source of a usage says what is held for it. -/
theorem usageSource?_inj {b b' : BalanceReservation} {source : UsageSource}
    (h : b.usageSource? = some source) (h' : b'.usageSource? = some source) :
    b'.sourceType = b.sourceType ∧ b'.sourceId = b.sourceId := by
  rw [usageSource?_eq_some] at h h'
  rcases h with ⟨ht, rfl⟩ | ⟨ht, rfl⟩
  · rcases h' with ⟨ht', hs⟩ | ⟨-, hs⟩
    · exact ⟨ht'.trans ht.symm, (UsageSource.inferenceRequest.inj hs).symm⟩
    · cases hs
  · rcases h' with ⟨-, hs⟩ | ⟨ht', hs⟩
    · cases hs
    · exact ⟨ht'.trans ht.symm, (UsageSource.generationJob.inj hs).symm⟩

/-- The usage `u` is recorded for what `b` is held for. -/
structure Meters (b : BalanceReservation) (u : UsageRecord) : Prop where
  tenant : u.tenantId = b.tenantId
  source : b.usageSource? = some u.source

/-- The usage carries the price of its own measures. -/
def Charged (src : Sources) (b : BalanceReservation) (u : UsageRecord) : Prop :=
  ∃ price charge label, priceForReservation src b.tenantId b = .ok price
    ∧ chargeForUsage price u.usage = .ok charge ∧ pricingVersion price = .ok label
    ∧ u.chargeAmountMinor = charge.amountMinor

/-- The wallet and the price of a reservation are its own. -/
structure Funded (src : Sources) (db : Db) (b : BalanceReservation) : Prop where
  priced : ∃ price, priceForReservation src b.tenantId b = .ok price
    ∧ price.currency = b.currency
  wallet : ∃ w, db.wallets.get b.walletAccountId = some w ∧ w.tenantId = b.tenantId
    ∧ w.currency = b.currency

structure Accounts (src : Sources) (db : Db) : Prop where
  funded : ∀ i b, db.reservations.get i = some b → Funded src db b
  /-- A source is held for once. -/
  distinct : ∀ i j b b', db.reservations.get i = some b →
    db.reservations.get j = some b' → b'.tenantId = b.tenantId →
    b'.sourceType = b.sourceType → b'.sourceId = b.sourceId → i = j
  charged : ∀ k u, db.usageRecords.get k = some u →
    ∃ i b, db.reservations.get i = some b ∧ Meters b u ∧ Charged src b u
  /-- A source is metered once. -/
  single : ∀ k l u v, db.usageRecords.get k = some u → db.usageRecords.get l = some v →
    v.tenantId = u.tenantId → v.source = u.source → k = l
  captured : ∀ i b c, db.reservations.get i = some b →
    b.capturedAmountMinor = some c →
    ∃ k u, db.usageRecords.get k = some u ∧ Meters b u ∧ (u.chargeAmountMinor : Int) = c

/-- Sources only grow: a price accepted once stays accepted. -/
structure Sources.Extends (src src' : Sources) : Prop where
  inference : ∀ t id v, src.inferencePriceVersionId t id = some v →
    src'.inferencePriceVersionId t id = some v
  generation : ∀ t id v, src.generationPriceVersionId t id = some v →
    src'.generationPriceVersionId t id = some v
  prices : src'.priceVersions = src.priceVersions

theorem Sources.Extends.refl (src : Sources) : src.Extends src :=
  ⟨fun _ _ _ h => h, fun _ _ _ h => h, rfl⟩

-- ============================================================== lookups

theorem Sources.Extends.price (h : src.Extends src') {tenantId : Nat}
    {b : BalanceReservation} {price : PriceSnapshot}
    (hprice : priceForReservation src tenantId b = .ok price) :
    priceForReservation src' tenantId b = .ok price := by
  unfold priceForReservation at hprice ⊢
  by_cases hchat : b.sourceType = "chat_inference"
  · simp only [if_pos hchat, bind_eq_ok, orRaise_eq_ok] at hprice ⊢
    obtain ⟨v, hv, hprice⟩ := hprice
    exact ⟨v, h.inference _ _ _ hv, by rw [h.prices, hprice]⟩
  · by_cases hgen : b.sourceType = "generation"
    · simp only [if_neg hchat, if_pos hgen, bind_eq_ok, orRaise_eq_ok] at hprice ⊢
      obtain ⟨v, hv, hprice⟩ := hprice
      exact ⟨v, h.generation _ _ _ hv, by rw [h.prices, hprice]⟩
    · simp only [if_neg hchat, if_neg hgen, bind_eq_ok] at hprice
      obtain ⟨v, hv, -⟩ := hprice
      cases hv

/-- A price is looked up by tenant and source only. -/
theorem priceForReservation_congr {tenantId : Nat} {b b' : BalanceReservation}
    (h : SameSource b b') :
    priceForReservation src tenantId b' = priceForReservation src tenantId b := by
  unfold priceForReservation
  rw [h.2.1, h.2.2]

theorem usageForReservation_ok {tenantId k : Nat} {b : BalanceReservation}
    {u : UsageRecord} (h : usageForReservation db tenantId b = .ok (k, u)) :
    db.usageRecords.get k = some u ∧ u.tenantId = tenantId
      ∧ b.usageSource? = some u.source := by
  unfold usageForReservation at h
  unfold BalanceReservation.usageSource?
  split at h
  · next hst =>
      obtain ⟨hget, hp⟩ := Table.find_some (orRaise_eq_ok.mp h)
      simp only [Bool.and_eq_true, beq_iff_eq] at hp
      exact ⟨hget, hp.1, by rw [if_pos hst, hp.2]⟩
  · next hst =>
      split at h
      · next hst' =>
          obtain ⟨hget, hp⟩ := Table.find_some (orRaise_eq_ok.mp h)
          simp only [Bool.and_eq_true, beq_iff_eq] at hp
          exact ⟨hget, hp.1, by rw [if_neg hst, if_pos hst', hp.2]⟩
      · cases h

/-- The lookup of a usage finds a record exactly when there is one. -/
theorem usageForReservation_eq {b : BalanceReservation} {source : UsageSource}
    (hsource : b.usageSource? = some source) (tenantId : Nat) :
    usageForReservation db tenantId b
      = orRaise (db.usageRecords.find fun u =>
          u.tenantId == tenantId && u.source == source) .invariant := by
  unfold BalanceReservation.usageSource? at hsource
  unfold usageForReservation
  split at hsource
  · next hst => rw [if_pos hst, Option.some.inj hsource]
  · next hst =>
      rw [if_neg hst]
      split at hsource
      · next hst' => rw [if_pos hst', Option.some.inj hsource]
      · cases hsource

theorem Accounts.usage_found (h : Accounts src db) {b : BalanceReservation}
    {k : Nat} {u : UsageRecord} (hu : db.usageRecords.get k = some u)
    (hm : Meters b u) : usageForReservation db b.tenantId b = .ok (k, u) := by
  rw [usageForReservation_eq hm.source, orRaise_eq_ok]
  cases hfind : db.usageRecords.find fun v =>
      v.tenantId == b.tenantId && v.source == u.source with
  | none =>
      have := Table.find_none hfind hu
      simp [hm.tenant] at this
  | some y =>
      obtain ⟨hget, hp⟩ := Table.find_some hfind
      simp only [Bool.and_eq_true, beq_iff_eq] at hp
      obtain rfl := h.single k y.1 u y.2 hu hget (hp.1.trans hm.tenant.symm) hp.2
      obtain rfl := Option.some.inj (hu.symm.trans hget)
      rfl

theorem chargeForUsage_ok {price : PriceSnapshot} {usage : BillingUsage} {charge : Money}
    (h : chargeForUsage price usage = .ok charge) :
    0 < charge.amountMinor ∧ charge.currency = price.currency := by
  simp only [chargeForUsage, bind_eq_ok, raiseIf_eq_ok, pure_eq_ok] at h
  obtain ⟨tariff, -, -, hpos, rfl⟩ := h
  exact ⟨by simpa [Nat.pos_iff_ne_zero] using hpos, rfl⟩

-- ============================================================== release

/-- A pending hold is within its wallet's reserve. -/
theorem BillingInv.covered (hc : BillingInv initial db) {i : Nat}
    {b : BalanceReservation} {w : WalletAccount} (hb : db.reservations.get i = some b)
    (hpending : b.status = .pending) (hw : db.wallets.get b.walletAccountId = some w) :
    b.amountMinor ≤ w.reservedMinor := by
  have hle := hc.pending_le hb b.walletAccountId
  rw [pendingOf, if_pos ⟨rfl, hpending⟩] at hle
  rw [hc.reserved _ w hw]
  exact hle

/-- A pending hold can be released, whatever else is in the books. -/
theorem release_pending (hc : BillingInv initial db) (ha : Accounts src db) {i : Nat}
    {b : BalanceReservation} (hb : db.reservations.get i = some b)
    (hpending : b.status = .pending) (now : Nat) :
    ∃ x, release now .none b.tenantId i db = .ok x
      ∧ Table.Replaced db.reservations x.2.reservations i b
          { b with status := .released, releasedAt := some now } := by
  obtain ⟨w, hw, hwt, hwc⟩ := (ha.funded i b hb).wallet
  have hpos := hc.positive i b hb
  have hlock : lockReservation db b.tenantId i = .ok b := by
    rw [lockReservation, orRaise_eq_ok, Option.filter_eq_some_iff]
    exact ⟨hb, by simp⟩
  have hwallet : lockWalletById db b.tenantId b.walletAccountId = .ok w := by
    rw [lockWalletById, orRaise_eq_ok, Option.filter_eq_some_iff]
    exact ⟨hw, by simp [hwt]⟩
  have hmatch : assertWalletReservationMatch b.walletAccountId w b = .ok () := by
    rw [assertWalletReservationMatch, raiseIf_eq_ok]
    simp [hwt, hwc]
  have hdecide : decideRelease b.status b.amountMinor = .ok ⟨b.amountMinor, false⟩ := by
    simp only [decideRelease, requireNonnegativeInteger, bind_eq_ok, raiseIf_eq_ok]
    refine ⟨(), by omega, (), by omega, ?_⟩
    simp [hpending, raiseIf, bind, Except.bind, pure, Except.pure]
  have hcovered := hc.covered hb hpending hw
  refine ⟨(⟨reservationResult i { b with status := .released }, b.amountMinor, false⟩,
    settleRelease now db b.tenantId i w b ⟨b.amountMinor, false⟩), ?_,
    Table.replaced_modify hb _⟩
  simp only [release, bind_eq_ok, mapError_eq_ok, raiseIf_eq_ok]
  refine ⟨(), by simp, b, hlock, w, hwallet, (), hmatch, _, hdecide, ?_⟩
  simp only [Bool.false_eq_true, if_false, bind_eq_ok, raiseIf_eq_ok]
  exact ⟨(), by omega, rfl⟩

-- ============================================================== capture

/-- The wallets after a settlement: only counters have moved. -/
def SameWallets (t t' : Table WalletAccount) : Prop :=
  ∀ i w, t.get i = some w → ∃ w', t'.get i = some w' ∧ w'.tenantId = w.tenantId
    ∧ w'.currency = w.currency ∧ w'.status = w.status

theorem SameWallets.refl (t : Table WalletAccount) : SameWallets t t :=
  fun _ w hw => ⟨w, hw, rfl, rfl, rfl⟩

theorem sameWallets_modify (t : Table WalletAccount) (i : Nat)
    {f : WalletAccount → WalletAccount}
    (hf : ∀ w, (f w).tenantId = w.tenantId ∧ (f w).currency = w.currency
      ∧ (f w).status = w.status) : SameWallets t (t.modify i f) := by
  intro j w hw
  by_cases hj : i = j
  · subst hj
    exact ⟨f w, by rw [Table.get_modify_self, hw]; rfl, hf w⟩
  · exact ⟨w, by rw [Table.get_modify_ne _ hj, hw], rfl, rfl, rfl⟩

/-- What a capture priced from the recorded usage found and left. -/
structure Captured (now : Nat) (src : Sources) (q : CaptureRequest) (db db' : Db)
    (b : BalanceReservation) (w : WalletAccount) (price : PriceSnapshot) (k : Nat)
    (u : UsageRecord) (charge : Money) (label : String) : Prop where
  reservation : db.reservations.get q.reservationId = some b
  tenant : b.tenantId = q.tenantId
  wallet : db.wallets.get b.walletAccountId = some w
  accepted : priceForReservation src q.tenantId b = .ok price
  recorded : usageForReservation db q.tenantId b = .ok (k, u)
  charged : chargeForUsage price (q.usage.getD u.usage) = .ok charge
  agrees : u.chargeAmountMinor = 0 ∨ u.chargeAmountMinor = charge.amountMinor
  usages : db'.usageRecords = db.usageRecords.modify k fun u =>
    { u with pricingVersion := label, currency := charge.currency
             chargeAmountMinor := charge.amountMinor }
  wallets : SameWallets db.wallets db'.wallets
  settled : (b.status = .committed ∧ b.capturedAmountMinor = some (charge.amountMinor : Int)
      ∧ db'.reservations = db.reservations)
    ∨ (b.status = .pending ∧ now < b.expiresAt
      ∧ (charge.amountMinor : Int) ≤ b.amountMinor ∧ w.status = .active
      ∧ Table.Replaced db.reservations db'.reservations q.reservationId b
          { b with status := .committed
                   capturedAmountMinor := some (charge.amountMinor : Int)
                   committedAt := some now })

theorem decideCapture_ok {status : ReservationStatus} {reserved actual : Int}
    {captured : Option Int} {d : CaptureDecision}
    (h : decideCapture status reserved actual captured = .ok d) :
    d.chargedMinor = actual
      ∧ ((d.idempotent = true ∧ status = .committed ∧ captured = some actual)
        ∨ (d.idempotent = false ∧ status = .pending ∧ actual ≤ reserved)) := by
  simp only [decideCapture, requireNonnegativeInteger, bind_eq_ok, raiseIf_eq_ok] at h
  obtain ⟨-, -, -, -, -, -, h⟩ := h
  split at h
  · next hst =>
      simp only [bind_eq_ok, raiseIf_eq_ok, pure_eq_ok, not_not] at h
      obtain ⟨-, hcap, rfl⟩ := h
      exact ⟨rfl, Or.inl ⟨rfl, hst, hcap⟩⟩
  · simp only [bind_eq_ok, raiseIf_eq_ok, pure_eq_ok, not_not] at h
    obtain ⟨-, hst, -, hle, rfl⟩ := h
    exact ⟨rfl, Or.inr ⟨rfl, hst, by omega⟩⟩

theorem applyUsageCharge_eq_ok {k : Nat} {u : UsageRecord} {price : PriceSnapshot}
    {charge : Money} :
    applyUsageCharge db k u price charge = .ok db'
      ↔ ∃ label, pricingVersion price = .ok label
        ∧ (u.chargeAmountMinor = 0 ∨ u.chargeAmountMinor = charge.amountMinor)
        ∧ { db with usageRecords := db.usageRecords.modify k fun u =>
              { u with pricingVersion := label, currency := charge.currency
                       chargeAmountMinor := charge.amountMinor } } = db' := by
  simp only [applyUsageCharge, bind_eq_ok, raiseIf_eq_ok, pure_eq_ok, not_and_or, not_not]
  constructor
  · rintro ⟨label, hl, -, hu, hdb⟩
    exact ⟨label, hl, hu, hdb⟩
  · rintro ⟨label, hl, hu, hdb⟩
    exact ⟨label, hl, (), hu, hdb⟩

theorem captureAmount_priced {q : CaptureRequest} {b : BalanceReservation}
    (hq : q.actual = none) {actual : Money}
    {priced : Option (Nat × UsageRecord × PriceSnapshot)} :
    captureAmount src db q b = .ok (actual, priced)
      ↔ ∃ price k u, priceForReservation src q.tenantId b = .ok price
        ∧ usageForReservation db q.tenantId b = .ok (k, u)
        ∧ chargeForUsage price (q.usage.getD u.usage) = .ok actual
        ∧ priced = some (k, u, price) := by
  simp only [captureAmount, hq]
  split
  · next habsurd => cases habsurd
  · simp only [bind_eq_ok, pure_eq_ok, Prod.mk.injEq]
    constructor
    · rintro ⟨price, hprice, ⟨k, u⟩, hu, charge, hcharge, rfl, rfl⟩
      exact ⟨price, k, u, hprice, hu, hcharge, rfl⟩
    · rintro ⟨price, k, u, hprice, hu, hcharge, rfl⟩
      exact ⟨price, hprice, (k, u), hu, actual, hcharge, rfl, rfl⟩

theorem capture_captured {q : CaptureRequest} {x : CaptureResult × Db}
    (h : capture now .none src q db = .ok x) (hq : q.actual = none) :
    ∃ b w price k u charge label,
      Captured now src q db x.2 b w price k u charge label := by
  simp only [capture, bind_eq_ok, mapError_eq_ok, raiseIf_eq_ok] at h
  obtain ⟨-, -, -, -, b, hb, w, hw, -, -, ⟨charge, priced⟩, hamount, -, -, -, hlive, d, hd,
    h⟩ := h
  obtain ⟨price, k, u, hprice, hu, hcharge, rfl⟩ := (captureAmount_priced hq).mp hamount
  obtain ⟨hb, htenant⟩ := lockReservation_ok hb
  obtain ⟨hw, -⟩ := lockWalletById_ok hw
  obtain ⟨hcharged, hdone | ⟨hfresh, hpending, hle⟩⟩ := decideCapture_ok hd
  · simp only [hdone.1, if_true, applyPricedUsage, bind_eq_ok, pure_eq_ok] at h
    obtain ⟨db₁, happly, rfl⟩ := h
    obtain ⟨label, -, hagrees, rfl⟩ := applyUsageCharge_eq_ok.mp happly
    exact ⟨b, w, price, k, u, charge, label,
      { reservation := hb, tenant := htenant, wallet := hw, accepted := hprice
        recorded := hu, charged := hcharge, agrees := hagrees, usages := rfl
        wallets := SameWallets.refl _
        settled := Or.inl ⟨hdone.2.1, hdone.2.2, rfl⟩ }⟩
  · simp only [hfresh, Bool.false_eq_true, if_false, applyPricedUsage, bind_eq_ok,
      raiseIf_eq_ok, not_not, pure_eq_ok] at h
    obtain ⟨-, hactive, -, -, db₁, happly, rfl⟩ := h
    obtain ⟨label, -, hagrees, rfl⟩ := applyUsageCharge_eq_ok.mp happly
    have hfuture : now < b.expiresAt := by
      simpa [hpending, reservationIsExpired] using hlive
    refine ⟨b, w, price, k, u, charge, label,
      { reservation := hb, tenant := htenant, wallet := hw, accepted := hprice
        recorded := hu, charged := hcharge, agrees := hagrees, usages := rfl
        wallets := sameWallets_modify _ _ fun _ => ⟨rfl, rfl, rfl⟩
        settled := Or.inr ⟨hpending, hfuture, hle, hactive, ?_⟩ }⟩
    rw [← hcharged]
    exact Table.replaced_modify hb _

/-- Settling the recorded usage: what a capture looks up of a hold. -/
structure Priceable (src : Sources) (db : Db) (i : Nat) (b : BalanceReservation)
    (w : WalletAccount) (price : PriceSnapshot) (k : Nat) (u : UsageRecord)
    (charge : Money) : Prop where
  reservation : lockReservation db b.tenantId i = .ok b
  wallet : lockWalletById db b.tenantId b.walletAccountId = .ok w
  held : assertWalletReservationMatch b.walletAccountId w b = .ok ()
  amount : captureAmount src db { tenantId := b.tenantId, reservationId := i } b
    = .ok (charge, some (k, u, price))
  currency : charge.currency = w.currency
  label : ∃ label, pricingVersion price = .ok label
  agrees : u.chargeAmountMinor = charge.amountMinor

theorem Accounts.priceable (ha : Accounts src db) {i k : Nat} {b : BalanceReservation}
    {u : UsageRecord} {w : WalletAccount} (hb : db.reservations.get i = some b)
    (hu : db.usageRecords.get k = some u) (hm : Meters b u)
    (hw : db.wallets.get b.walletAccountId = some w) :
    ∃ price charge, Priceable src db i b w price k u charge := by
  obtain ⟨w', hw', hwt, hwc⟩ := (ha.funded i b hb).wallet
  obtain rfl := Option.some.inj (hw.symm.trans hw')
  obtain ⟨j, b', hb', hm', price, charge, label, hprice, hcharge, hlabel, hagrees⟩ :=
    ha.charged k u hu
  -- the usage is metered for this reservation and no other
  obtain ⟨htype, hid⟩ := usageSource?_inj hm.source hm'.source
  obtain rfl := ha.distinct i j b b' hb hb' (hm'.tenant.symm.trans hm.tenant) htype hid
  obtain rfl := Option.some.inj (hb.symm.trans hb')
  obtain ⟨price', hprice', hcurrency⟩ := (ha.funded i b hb).priced
  obtain rfl := Except.ok.inj (hprice.symm.trans hprice')
  refine ⟨price, charge,
    { reservation := ?_, wallet := ?_, held := ?_, amount := ?_, currency := ?_
      label := ⟨label, hlabel⟩, agrees := hagrees }⟩
  · rw [lockReservation, orRaise_eq_ok, Option.filter_eq_some_iff]
    exact ⟨hb, by simp⟩
  · rw [lockWalletById, orRaise_eq_ok, Option.filter_eq_some_iff]
    exact ⟨hw, by simp [hwt]⟩
  · rw [assertWalletReservationMatch, raiseIf_eq_ok]
    simp [hwt, hwc]
  · exact (captureAmount_priced rfl).mpr
      ⟨price, k, u, hprice, ha.usage_found hu hm, hcharge, rfl⟩
  · rw [(chargeForUsage_ok hcharge).2, hcurrency, hwc]

/-- Past its expiry a pending hold is not captured. -/
theorem capture_expired (ha : Accounts src db) {i k : Nat} {b : BalanceReservation}
    {u : UsageRecord} (hb : db.reservations.get i = some b)
    (hpending : b.status = .pending) (hu : db.usageRecords.get k = some u)
    (hm : Meters b u) (hexpired : b.expiresAt ≤ now) :
    capture now .none src { tenantId := b.tenantId, reservationId := i } db
      = .error (.conflict RESERVATION_EXPIRED "该预留已过期") := by
  obtain ⟨w, hw, -, -⟩ := (ha.funded i b hb).wallet
  obtain ⟨price, charge, h⟩ := ha.priceable hb hu hm hw
  simp only [capture, bind_eq_error, raiseIf_eq_ok]
  refine Or.inr ⟨(), by simp, Or.inr ⟨(), by simp, Or.inr ⟨b, h.reservation, Or.inr
    ⟨w, h.wallet, Or.inr ⟨(), h.held, Or.inr ⟨_, h.amount, Or.inr ⟨(), ?_, Or.inl ?_⟩⟩⟩⟩⟩⟩⟩
  · simp [h.currency]
  · rw [raiseIf_eq_error]
    exact ⟨⟨hpending, by simpa [reservationIsExpired] using hexpired⟩, rfl⟩

/-- Before its expiry the recorded usage of a hold is captured when the
charge fits in the hold and the wallet is active. -/
theorem capture_live (hc : BillingInv initial db) (ha : Accounts src db) {i k : Nat}
    {b : BalanceReservation} {u : UsageRecord} {w : WalletAccount}
    (hb : db.reservations.get i = some b) (hpending : b.status = .pending)
    (hu : db.usageRecords.get k = some u) (hm : Meters b u)
    (hw : db.wallets.get b.walletAccountId = some w) (hlive : now < b.expiresAt) :
    (∃ x, capture now .none src { tenantId := b.tenantId, reservationId := i } db = .ok x)
      ↔ (u.chargeAmountMinor : Int) ≤ b.amountMinor ∧ w.status = .active := by
  constructor
  · rintro ⟨x, hx⟩
    obtain ⟨b', w', price, k', u', charge, label, hcap⟩ := capture_captured hx rfl
    obtain rfl := Option.some.inj (hb.symm.trans hcap.reservation)
    obtain rfl := Option.some.inj (hw.symm.trans hcap.wallet)
    obtain ⟨hcommitted, -⟩ | ⟨-, -, hle, hactive, -⟩ := hcap.settled
    · rw [hpending] at hcommitted
      cases hcommitted
    · obtain ⟨price', charge', h⟩ := ha.priceable hb hu hm hw
      have hamount := (captureAmount_priced (q := { tenantId := b.tenantId, reservationId := i })
        rfl).mpr ⟨price, k', u', hcap.accepted, hcap.recorded, hcap.charged, rfl⟩
      obtain ⟨rfl, -⟩ := Prod.mk.inj (Except.ok.inj (hamount.symm.trans h.amount))
      exact ⟨by rw [h.agrees]; exact hle, hactive⟩
  · rintro ⟨hle, hactive⟩
    obtain ⟨price, charge, h⟩ := ha.priceable hb hu hm hw
    obtain ⟨label, hlabel⟩ := h.label
    have hpos := hc.positive i b hb
    have hdecide : decideCapture b.status b.amountMinor charge.amountMinor
        b.capturedAmountMinor = .ok ⟨charge.amountMinor,
          b.amountMinor - charge.amountMinor, false⟩ := by
      rw [h.agrees] at hle
      simp only [decideCapture, requireNonnegativeInteger, bind_eq_ok, raiseIf_eq_ok]
      refine ⟨(), by omega, (), by omega, (), by omega, ?_⟩
      rw [if_neg (by simp [hpending])]
      simp only [bind_eq_ok, raiseIf_eq_ok, pure_eq_ok]
      exact ⟨(), by simp [hpending], (), by omega, trivial⟩
    have hcovered := hc.covered hb hpending hw
    have hbounds := hc.bounds _ w hw
    rw [h.agrees] at hle
    -- the writes: the settlement, then the charge of the usage
    obtain ⟨db₁, happly⟩ : ∃ db₁, applyUsageCharge (settleCapture now db b.tenantId i w b
        ⟨charge.amountMinor, b.amountMinor - charge.amountMinor, false⟩) k u price charge
        = .ok db₁ :=
      ⟨_, applyUsageCharge_eq_ok.mpr ⟨label, hlabel, Or.inr h.agrees, rfl⟩⟩
    refine ⟨(⟨reservationResult i { b with status := .committed }, charge.amountMinor,
      b.amountMinor - charge.amountMinor, false⟩, db₁), ?_⟩
    simp only [capture, bind_eq_ok, mapError_eq_ok, raiseIf_eq_ok]
    refine ⟨(), by simp, (), by simp, b, h.reservation, w, h.wallet, (), h.held, _, h.amount,
      (), by simp [h.currency], (), ?_, _, hdecide, ?_⟩
    · simp only [reservationIsExpired, decide_eq_true_eq]
      omega
    · simp only [Bool.false_eq_true, if_false, bind_eq_ok, raiseIf_eq_ok]
      exact ⟨(), by simp [hactive], (), by omega, db₁, happly, rfl⟩

-- ========================================================= preservation

/-- A reservation keeps its source, its wallet and its currency. -/
structure SameHold (b b' : BalanceReservation) : Prop where
  source : SameSource b b'
  wallet : b'.walletAccountId = b.walletAccountId
  currency : b'.currency = b.currency

theorem SameHold.refl (b : BalanceReservation) : SameHold b b :=
  ⟨⟨rfl, rfl, rfl⟩, rfl, rfl⟩

theorem SameHold.symm {b b' : BalanceReservation} (h : SameHold b b') : SameHold b' b :=
  ⟨⟨h.source.1.symm, h.source.2.1.symm, h.source.2.2.symm⟩, h.wallet.symm,
    h.currency.symm⟩

theorem SameHold.meters {b b' : BalanceReservation} {u : UsageRecord} (h : SameHold b b')
    (hm : Meters b u) : Meters b' u := by
  refine ⟨hm.tenant.trans h.source.1.symm, ?_⟩
  rw [← hm.source]
  unfold BalanceReservation.usageSource?
  rw [h.source.2.1, h.source.2.2]

theorem SameHold.charged {b b' : BalanceReservation} {u : UsageRecord}
    (h : SameHold b b') (hc : Charged src b u) : Charged src b' u := by
  unfold Charged at hc ⊢
  rw [h.source.1, priceForReservation_congr h.source]
  exact hc

/-- The usage records after a settlement: each keeps its charge. -/
def SameCharges (t t' : Table UsageRecord) : Prop :=
  ∃ (k : Nat) (f : UsageRecord → UsageRecord), t' = t.modify k f
    ∧ ∀ u, t.get k = some u → (f u).tenantId = u.tenantId ∧ (f u).source = u.source
      ∧ (f u).usage = u.usage ∧ (f u).chargeAmountMinor = u.chargeAmountMinor

/-- The columns of a usage record the accounts are about. -/
structure SameUsage (u u' : UsageRecord) : Prop where
  tenant : u'.tenantId = u.tenantId
  source : u'.source = u.source
  usage : u'.usage = u.usage
  charge : u'.chargeAmountMinor = u.chargeAmountMinor

theorem SameUsage.meters {b : BalanceReservation} {u u' : UsageRecord}
    (h : SameUsage u u') (hm : Meters b u) : Meters b u' :=
  ⟨h.tenant.trans hm.tenant, by rw [h.source]; exact hm.source⟩

theorem SameCharges.old {t t' : Table UsageRecord} (h : SameCharges t t') {k : Nat}
    {u' : UsageRecord} (hu' : t'.get k = some u') :
    ∃ u, t.get k = some u ∧ SameUsage u u' := by
  obtain ⟨j, f, rfl, hf⟩ := h
  obtain ⟨rfl, u, hu, rfl⟩ | ⟨-, hu⟩ := Table.get_modify_cases hu'
  · obtain ⟨ht, hs, hus, hch⟩ := hf u hu
    exact ⟨u, hu, ht, hs, hus, hch⟩
  · exact ⟨u', hu, rfl, rfl, rfl, rfl⟩

theorem SameCharges.new {t t' : Table UsageRecord} (h : SameCharges t t') {k : Nat}
    {u : UsageRecord} (hu : t.get k = some u) :
    ∃ u', t'.get k = some u' ∧ SameUsage u u' := by
  obtain ⟨j, f, rfl, hf⟩ := h
  by_cases hj : j = k
  · subst hj
    obtain ⟨ht, hs, hus, hch⟩ := hf u hu
    exact ⟨f u, by rw [Table.get_modify_self, hu]; rfl, ht, hs, hus, hch⟩
  · exact ⟨u, by rw [Table.get_modify_ne _ hj, hu], rfl, rfl, rfl, rfl⟩

theorem SameCharges.refl (t : Table UsageRecord) : SameCharges t t :=
  ⟨0, id, by simp [Table.modify], fun _ _ => ⟨rfl, rfl, rfl, rfl⟩⟩

theorem Funded.extend {b b' : BalanceReservation} (h : Funded src db b)
    (hsrc : src.Extends src') (hwallets : SameWallets db.wallets db'.wallets)
    (hsame : SameHold b b') : Funded src' db' b' := by
  obtain ⟨⟨price, hprice, hcurrency⟩, w, hw, hwt, hwc⟩ := h
  refine ⟨⟨price, ?_, hcurrency.trans hsame.currency.symm⟩, ?_⟩
  · rw [hsame.source.1, priceForReservation_congr hsame.source]
    exact hsrc.price hprice
  · obtain ⟨w', hw', ht, hc, -⟩ := hwallets _ w hw
    rw [hsame.wallet]
    exact ⟨w', hw', ht.trans (hwt.trans hsame.source.1.symm),
      hc.trans (hwc.trans hsame.currency.symm)⟩

theorem Charged.extend {b : BalanceReservation} {u : UsageRecord} (h : Charged src b u)
    (hsrc : src.Extends src') : Charged src' b u := by
  obtain ⟨price, charge, label, hprice, hrest⟩ := h
  exact ⟨price, charge, label, hsrc.price hprice, hrest⟩

/-- What a settlement leaves as it was: the columns the accounts are
about, apart from an amount captured as the charge recorded. -/
structure Frame (db db' : Db) : Prop where
  wallets : SameWallets db.wallets db'.wallets
  old : ∀ i b', db'.reservations.get i = some b' →
    ∃ b, db.reservations.get i = some b ∧ SameHold b b'
      ∧ ∀ c, b'.capturedAmountMinor = some c → b.capturedAmountMinor = some c
        ∨ ∃ k u, db.usageRecords.get k = some u ∧ Meters b u
          ∧ (u.chargeAmountMinor : Int) = c
  new : ∀ i b, db.reservations.get i = some b →
    ∃ b', db'.reservations.get i = some b' ∧ SameHold b b'
  usages : SameCharges db.usageRecords db'.usageRecords

theorem Frame.refl (db : Db) : Frame db db where
  wallets := SameWallets.refl _
  old := fun _ b hb => ⟨b, hb, SameHold.refl b, fun _ hc => Or.inl hc⟩
  new := fun _ b hb => ⟨b, hb, SameHold.refl b⟩
  usages := SameCharges.refl _

/-- A settlement of one reservation, which keeps its columns. -/
theorem frame_of_replaced {i : Nat} {b b' : BalanceReservation}
    (hwallets : SameWallets db.wallets db'.wallets)
    (hrep : Table.Replaced db.reservations db'.reservations i b b')
    (hsame : SameHold b b')
    (hcaptured : ∀ c, b'.capturedAmountMinor = some c → b.capturedAmountMinor = some c
      ∨ ∃ k u, db.usageRecords.get k = some u ∧ Meters b u
        ∧ (u.chargeAmountMinor : Int) = c)
    (husages : SameCharges db.usageRecords db'.usageRecords) : Frame db db' where
  wallets := hwallets
  old := by
    intro j y hy
    obtain ⟨rfl, rfl⟩ | ⟨-, hy⟩ := hrep.cases hy
    · exact ⟨b, hrep.old, hsame, hcaptured⟩
    · exact ⟨y, hy, SameHold.refl y, fun _ hc => Or.inl hc⟩
  new := by
    intro j y hy
    by_cases hj : j = i
    · subst hj
      obtain rfl := Option.some.inj (hy.symm.trans hrep.old)
      exact ⟨b', hrep.new, hsame⟩
    · exact ⟨y, by rw [hrep.other hj, hy], SameHold.refl y⟩
  usages := husages

/-- Rows that keep their columns keep the accounts. -/
theorem Accounts.kept (h : Accounts src db) (hsrc : src.Extends src')
    (hframe : Frame db db') : Accounts src' db' where
  funded := by
    intro i b' hb'
    obtain ⟨b, hb, hsame, -⟩ := hframe.old i b' hb'
    exact (h.funded i b hb).extend hsrc hframe.wallets hsame
  distinct := by
    intro i j b₁ b₂ hb₁ hb₂ ht hst hid
    obtain ⟨y₁, hy₁, hs₁, -⟩ := hframe.old i b₁ hb₁
    obtain ⟨y₂, hy₂, hs₂, -⟩ := hframe.old j b₂ hb₂
    refine h.distinct i j y₁ y₂ hy₁ hy₂ ?_ ?_ ?_
    · rw [← hs₂.source.1, ht, hs₁.source.1]
    · rw [← hs₂.source.2.1, hst, hs₁.source.2.1]
    · rw [← hs₂.source.2.2, hid, hs₁.source.2.2]
  charged := by
    intro k u' hu'
    obtain ⟨u, hu, hsu⟩ := hframe.usages.old hu'
    obtain ⟨i, b, hb, hm, price, charge, label, hprice, hcharge, hlabel, hagrees⟩ :=
      h.charged k u hu
    obtain ⟨b', hb', hsame⟩ := hframe.new i b hb
    refine ⟨i, b', hb', hsu.meters (hsame.meters hm), ?_⟩
    have hcharged : Charged src b u' := by
      refine ⟨price, charge, label, hprice, ?_, hlabel, ?_⟩
      · rw [hsu.usage]
        exact hcharge
      · rw [hsu.charge]
        exact hagrees
    exact (hsame.charged hcharged).extend hsrc
  single := by
    intro k l u' v' hu' hv' ht hs
    obtain ⟨u, hu, hsu⟩ := hframe.usages.old hu'
    obtain ⟨v, hv, hsv⟩ := hframe.usages.old hv'
    refine h.single k l u v hu hv ?_ ?_
    · rw [← hsv.tenant, ht, hsu.tenant]
    · rw [← hsv.source, hs, hsu.source]
  captured := by
    intro i b' c hb' hcap
    obtain ⟨b, hb, hsame, hfrom⟩ := hframe.old i b' hb'
    obtain ⟨k, u, hu, hm, hcharge⟩ : ∃ k u, db.usageRecords.get k = some u ∧ Meters b u
        ∧ (u.chargeAmountMinor : Int) = c := by
      rcases hfrom c hcap with hcap | hnewly
      · exact h.captured i b c hb hcap
      · exact hnewly
    obtain ⟨u', hu', hsu⟩ := hframe.usages.new hu
    exact ⟨k, u', hu', hsu.meters (hsame.meters hm), by rw [hsu.charge, hcharge]⟩

theorem release_kept {tenantId i : Nat} {fault : Fault} {x : ReleaseResult × Db}
    (hx : release now fault tenantId i db = .ok x) : Frame db x.2 := by
  simp only [release, bind_eq_ok, mapError_eq_ok] at hx
  obtain ⟨-, -, b, hb, w, hw, -, -, d, hd, hx⟩ := hx
  split at hx
  · rw [pure_eq_ok] at hx
    subst hx
    exact Frame.refl db
  · simp only [bind_eq_ok, pure_eq_ok] at hx
    obtain ⟨-, -, rfl⟩ := hx
    exact frame_of_replaced (sameWallets_modify _ _ fun _ => ⟨rfl, rfl, rfl⟩)
      (Table.replaced_modify (lockReservation_ok hb).1 _) ⟨⟨rfl, rfl, rfl⟩, rfl, rfl⟩
      (fun _ hc => Or.inl hc) (SameCharges.refl _)

/-- The usage a capture prices carries that charge already. -/
theorem Captured.same_charge {q : CaptureRequest} {b : BalanceReservation}
    {w : WalletAccount} {price : PriceSnapshot} {k : Nat} {u : UsageRecord}
    {charge : Money} {label : String} (ha : Accounts src db)
    (h : Captured now src q db db' b w price k u charge label) :
    db.usageRecords.get k = some u ∧ Meters b u
      ∧ u.chargeAmountMinor = charge.amountMinor := by
  obtain ⟨hu, htenant, hsource⟩ := usageForReservation_ok h.recorded
  obtain ⟨-, -, -, -, price', charge', label', -, hcharge', -, hpaid⟩ := ha.charged k u hu
  have hpos := (chargeForUsage_ok hcharge').1
  refine ⟨hu, ⟨htenant.trans h.tenant.symm, hsource⟩, h.agrees.resolve_left ?_⟩
  omega

theorem capture_kept (ha : Accounts src db) {q : CaptureRequest} {x : CaptureResult × Db}
    (hq : q.actual = none) (hx : capture now .none src q db = .ok x) : Frame db x.2 := by
  obtain ⟨b, w, price, k, u, charge, label, hcap⟩ := capture_captured hx hq
  obtain ⟨hu, hm, hsame⟩ := hcap.same_charge ha
  have husages : SameCharges db.usageRecords x.2.usageRecords := by
    refine ⟨k, _, hcap.usages, fun v hv => ⟨rfl, rfl, rfl, ?_⟩⟩
    obtain rfl := Option.some.inj (hu.symm.trans hv)
    exact hsame.symm
  rcases hcap.settled with ⟨-, -, hres⟩ | ⟨-, -, -, -, hrep⟩
  · refine ⟨hcap.wallets, fun i b' hb' => ?_, fun i b' hb' => ?_, husages⟩
    · rw [hres] at hb'
      exact ⟨b', hb', SameHold.refl b', fun _ hc => Or.inl hc⟩
    · exact ⟨b', by rw [hres, hb'], SameHold.refl b'⟩
  · refine frame_of_replaced hcap.wallets hrep ⟨⟨rfl, rfl, rfl⟩, rfl, rfl⟩
      (fun c hc => Or.inr ⟨k, u, hu, hm, ?_⟩) husages
    rw [hsame]
    exact Option.some.inj hc

/-- A completion records the priced usage of a source that has none. -/
theorem Accounts.recorded (h : Accounts src db) {u : UsageRecord} {i : Nat}
    {b : BalanceReservation} (hb : db.reservations.get i = some b) (hm : Meters b u)
    (hcharged : Charged src b u)
    (hfirst : ∀ k v, db.usageRecords.get k = some v →
      ¬ (v.tenantId = u.tenantId ∧ v.source = u.source)) :
    Accounts src { db with usageRecords := db.usageRecords.insert u } where
  funded := fun j y hy =>
    (h.funded j y hy).extend (.refl src) (SameWallets.refl _) (SameHold.refl y)
  distinct := h.distinct
  charged := by
    intro k v hv
    obtain ⟨-, rfl⟩ | hv := Table.get_insert_cases hv
    · exact ⟨i, b, hb, hm, hcharged⟩
    · exact h.charged k v hv
  single := by
    intro k l v v' hv hv' ht hs
    obtain ⟨hk, rfl⟩ | hold := Table.get_insert_cases hv
    · obtain ⟨hl, -⟩ | hold' := Table.get_insert_cases hv'
      · exact hk.trans hl.symm
      · exact absurd ⟨ht, hs⟩ (hfirst l v' hold')
    · obtain ⟨-, rfl⟩ | hold' := Table.get_insert_cases hv'
      · exact absurd ⟨ht.symm, hs.symm⟩ (hfirst k v hold)
      · exact h.single k l v v' hold hold' ht hs
  captured := by
    intro j b' c hb' hc
    obtain ⟨k, v, hv, hrest⟩ := h.captured j b' c hb' hc
    exact ⟨k, v, Table.get_insert_of_some hv _, hrest⟩

/-- The hold of an acceptance: a new row in a wallet of its tenant. -/
theorem reserveInTransaction_opened {tenantId sourceId expiresAt : Nat}
    {sourceType : String} {price : PriceSnapshot} {res : ReservationResult}
    (hnormal : normalizeSourceType sourceType = .ok sourceType)
    (hfresh : findReservationBySource db tenantId sourceType sourceId = none)
    (h : reserveInTransaction now tenantId sourceType sourceId price expiresAt db
      = .ok (res, db')) :
    ∃ walletId w b, db.wallets.get walletId = some w ∧ w.tenantId = tenantId
      ∧ w.currency = price.currency ∧ SameWallets db.wallets db'.wallets
      ∧ db'.usageRecords = db.usageRecords
      ∧ db'.reservations = db.reservations.insert b
      ∧ b.tenantId = tenantId ∧ b.walletAccountId = walletId
      ∧ b.currency = price.currency ∧ b.sourceType = sourceType
      ∧ b.sourceId = sourceId ∧ b.capturedAmountMinor = none := by
  simp only [reserveInTransaction, bind_eq_ok, hnormal] at h
  obtain ⟨amount, hamount, st, hst, exp, -, htxn⟩ := h
  obtain rfl : sourceType = st := Except.ok.inj hst
  simp only [reservationAmount, bind_eq_ok, pure_eq_ok] at hamount
  obtain ⟨tariff, -, rfl⟩ := hamount
  simp only [reserveInTxn, hfresh] at htxn
  simp only [bind_eq_ok, pure_eq_ok, openHold, Prod.mk.injEq] at htxn
  obtain ⟨⟨walletId, w⟩, hlock, -, -, -, -, -, -, rfl, rfl⟩ := htxn
  obtain ⟨hw, hp⟩ := Table.find_some (orRaise_eq_ok.mp hlock)
  simp only [Bool.and_eq_true, beq_iff_eq] at hp
  exact ⟨walletId, w, _, hw, hp.1, hp.2, sameWallets_modify _ _ fun _ => ⟨rfl, rfl, rfl⟩,
    rfl, rfl, rfl, rfl, rfl, rfl, rfl, rfl⟩

/-- An acceptance keeps the accounts: its source is new and priced. -/
theorem Accounts.held (h : Accounts src db) (hsrc : src.Extends src')
    {tenantId sourceId expiresAt : Nat} {sourceType : String} {price : PriceSnapshot}
    {res : ReservationResult}
    (hnormal : normalizeSourceType sourceType = .ok sourceType)
    (hfresh : ∀ i b, db.reservations.get i = some b →
      ¬ (b.sourceType = sourceType ∧ b.sourceId = sourceId))
    (hprice : ∀ b : BalanceReservation, b.sourceType = sourceType →
      b.sourceId = sourceId → priceForReservation src' tenantId b = .ok price)
    (hreserve : reserveInTransaction now tenantId sourceType sourceId price expiresAt db
      = .ok (res, db')) : Accounts src' db' := by
  have hnone : findReservationBySource db tenantId sourceType sourceId = none := by
    cases hfind : findReservationBySource db tenantId sourceType sourceId with
    | none => rfl
    | some y =>
        obtain ⟨hget, hp⟩ := Table.find_some hfind
        simp only [Bool.and_eq_true, beq_iff_eq] at hp
        exact absurd ⟨hp.1.2, hp.2⟩ (hfresh y.1 y.2 hget)
  obtain ⟨walletId, w, b, hw, hwt, hwc, hwallets, husages, hins, hbt, hbw, hbc, hbs, hbi,
    hcap⟩ := reserveInTransaction_opened hnormal hnone hreserve
  have hget : ∀ {i y}, db'.reservations.get i = some y →
      (i = db.reservations.nextId ∧ y = b) ∨ db.reservations.get i = some y := by
    intro i y hy
    rw [hins] at hy
    exact Table.get_insert_cases hy
  have hkeep : ∀ {i y}, db.reservations.get i = some y →
      db'.reservations.get i = some y := by
    intro i y hy
    rw [hins]
    exact Table.get_insert_of_some hy _
  refine { funded := ?_, distinct := ?_, charged := ?_, single := ?_, captured := ?_ }
  · intro i y hy
    rcases hget hy with ⟨-, rfl⟩ | hy
    · refine ⟨⟨price, ?_, hbc.symm⟩, ?_⟩
      · rw [hbt]
        exact hprice y hbs hbi
      · obtain ⟨w', hw', ht', hc', -⟩ := hwallets walletId w hw
        rw [hbw, hbt, hbc]
        exact ⟨w', hw', ht'.trans hwt, hc'.trans hwc⟩
    · exact (h.funded i y hy).extend hsrc hwallets (SameHold.refl y)
  · intro i j y z hy hz ht hst hid
    rcases hget hy with ⟨hi, rfl⟩ | hy
    · rcases hget hz with ⟨hj, -⟩ | hz
      · exact hi.trans hj.symm
      · exact absurd ⟨hst.trans hbs, hid.trans hbi⟩ (hfresh j z hz)
    · rcases hget hz with ⟨-, rfl⟩ | hz
      · exact absurd ⟨hst.symm.trans hbs, hid.symm.trans hbi⟩ (hfresh i y hy)
      · exact h.distinct i j y z hy hz ht hst hid
  · intro k u hu
    rw [husages] at hu
    obtain ⟨i, y, hy, hm, hch⟩ := h.charged k u hu
    exact ⟨i, y, hkeep hy, hm, hch.extend hsrc⟩
  · rw [husages]
    exact h.single
  · intro i y c hy hc
    rw [husages]
    rcases hget hy with ⟨-, rfl⟩ | hy
    · rw [hcap] at hc
      cases hc
    · exact h.captured i y c hy hc

end Mosaic.Billing
