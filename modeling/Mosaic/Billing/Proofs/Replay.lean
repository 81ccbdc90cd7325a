/-
Repeating a billing call.

# What a repeat meets

Between a call and its repeat any other calls may run, at any time. Two
facts bound what they can do: `Kept`, a reservation keeps its terms and,
once settled, its whole row; and `Books`, a source is held for once, in a
wallet of its tenant and currency. So a repeat finds the reservation the
call left.

# The priced capture

A capture priced from a recorded usage also reads that usage and the
charge on it, and other captures write charges. They write this one for
this reservation only, and then the amount the reservation was captured
at: `Taken` is the part of the tables a repeat of a capture reads, and no
step changes it.
-/
import Mosaic.Billing.Proofs.Accounts

namespace Mosaic.Billing

open Lib

variable {src src' : Sources} {initial db db' : Db} {now : Nat} {fault : Fault}

-- ============================================================ what is kept

/-- A reservation keeps everything but its settlement. -/
structure SameTerms (b b' : BalanceReservation) : Prop extends SameHold b b' where
  amount : b'.amountMinor = b.amountMinor
  expiry : b'.expiresAt = b.expiresAt

theorem SameTerms.refl (b : BalanceReservation) : SameTerms b b :=
  ⟨SameHold.refl b, rfl, rfl⟩

theorem SameTerms.trans {a b c : BalanceReservation} (h : SameTerms a b)
    (h' : SameTerms b c) : SameTerms a c := by
  refine ⟨⟨⟨?_, ?_, ?_⟩, ?_, ?_⟩, ?_, ?_⟩
  · exact h'.source.1.trans h.source.1
  · exact h'.source.2.1.trans h.source.2.1
  · exact h'.source.2.2.trans h.source.2.2
  · exact h'.wallet.trans h.wallet
  · exact h'.currency.trans h.currency
  · exact h'.amount.trans h.amount
  · exact h'.expiry.trans h.expiry

/-- A settled reservation stays as it is, a pending one keeps its terms. -/
def Kept (db db' : Db) : Prop :=
  ∀ i b, db.reservations.get i = some b → ∃ b', db'.reservations.get i = some b'
    ∧ SameTerms b b' ∧ (b.status ≠ .pending → b' = b)

theorem Kept.refl (db : Db) : Kept db db :=
  fun _ b hb => ⟨b, hb, SameTerms.refl b, fun _ => rfl⟩

theorem Kept.trans {db₁ db₂ db₃ : Db} (h : Kept db₁ db₂) (h' : Kept db₂ db₃) :
    Kept db₁ db₃ := by
  intro i b hb
  obtain ⟨b₂, hb₂, hterms, hfixed⟩ := h i b hb
  obtain ⟨b₃, hb₃, hterms', hfixed'⟩ := h' i b₂ hb₂
  refine ⟨b₃, hb₃, hterms.trans hterms', fun hst => ?_⟩
  obtain rfl := hfixed hst
  exact hfixed' hst

/-- Rewriting a pending row keeps every other. -/
theorem kept_modify {i : Nat} {b : BalanceReservation}
    {f : BalanceReservation → BalanceReservation}
    (hb : db.reservations.get i = some b) (hpending : b.status = .pending)
    (hf : SameTerms b (f b)) (hdb : db'.reservations = db.reservations.modify i f) :
    Kept db db' := by
  intro j x hx
  rw [hdb]
  by_cases hj : i = j
  · subst hj
    obtain rfl := Option.some.inj (hb.symm.trans hx)
    exact ⟨f b, by rw [Table.get_modify_self, hb]; rfl, hf, fun h => absurd hpending h⟩
  · exact ⟨x, by rw [Table.get_modify_ne _ hj, hx], SameTerms.refl x, fun _ => rfl⟩

theorem Writes.kept (h : Writes db db') : Kept db db' := by
  cases h with
  | usage us => exact Kept.refl db
  | hold walletId w q hw hpos hfits =>
      intro i b hb
      exact ⟨b, Table.get_insert_of_some hb _, SameTerms.refl b, fun _ => rfl⟩
  | capture now tenantId id r w d us hr hpending hw hcharged hle hsplit =>
      exact kept_modify hr hpending ⟨⟨⟨rfl, rfl, rfl⟩, rfl, rfl⟩, rfl, rfl⟩ rfl
  | release now tenantId id r w d hr hpending hw hfull =>
      exact kept_modify hr hpending ⟨⟨⟨rfl, rfl, rfl⟩, rfl, rfl⟩, rfl, rfl⟩ rfl

theorem Writes.wallets (h : Writes db db') : SameWallets db.wallets db'.wallets := by
  cases h with
  | usage us => exact SameWallets.refl _
  | hold walletId w q hw hpos hfits =>
      exact sameWallets_modify _ _ fun _ => ⟨rfl, rfl, rfl⟩
  | capture now tenantId id r w d us hr hpending hw hcharged hle hsplit =>
      exact sameWallets_modify _ _ fun _ => ⟨rfl, rfl, rfl⟩
  | release now tenantId id r w d hr hpending hw hfull =>
      exact sameWallets_modify _ _ fun _ => ⟨rfl, rfl, rfl⟩

theorem kept_run (db : Db) (calls : List Call) : Kept db (run step db calls) :=
  @run_rel _ _ step (fun _ => True) Kept Kept.refl Kept.trans (fun _ _ _ => trivial)
    (fun db call _ => (step_writes db call).kept) db trivial calls

-- =============================================================== reserve

/-- The terms of a reservation are those the request asks for. -/
structure Asked (q : ReserveRequest) (b : BalanceReservation) : Prop where
  tenant : b.tenantId = q.tenantId
  sourceType : b.sourceType = q.sourceType
  sourceId : b.sourceId = q.sourceId
  amount : b.amountMinor = q.amount.amountMinor
  currency : b.currency = q.amount.currency
  expiry : b.expiresAt = q.expiresAt

/-- What a hold that went through did. -/
inductive Reserves (db : Db) (q : ReserveRequest) : ReservationResult × Db → Prop
  /-- It found the reservation of the source, on the same terms. -/
  | replay (i : Nat) (b : BalanceReservation) (hb : db.reservations.get i = some b)
      (hasked : Asked q b) : Reserves db q (reservationResult i b, db)
  /-- It opened the only hold of the source, in a wallet of its tenant and
  currency. -/
  | fresh (walletId : Nat) (w : WalletAccount)
      (hnone : findReservationBySource db q.tenantId q.sourceType q.sourceId = none)
      (hw : db.wallets.get walletId = some w) (htenant : w.tenantId = q.tenantId)
      (hcurrency : w.currency = q.amount.currency) :
      Reserves db q (openHold db walletId w q)

theorem findReservationBySource_some {tenantId sourceId i : Nat} {sourceType : String}
    {b : BalanceReservation}
    (h : findReservationBySource db tenantId sourceType sourceId = some (i, b)) :
    db.reservations.get i = some b ∧ b.tenantId = tenantId ∧ b.sourceType = sourceType
      ∧ b.sourceId = sourceId := by
  obtain ⟨hget, hp⟩ := Table.find_some h
  simp only [Bool.and_eq_true, beq_iff_eq] at hp
  exact ⟨hget, hp.1.1, hp.1.2, hp.2⟩

theorem resolveExistingReservation_eq_ok {i : Nat} {b : BalanceReservation}
    {q : ReserveRequest} {x : ReservationResult} :
    resolveExistingReservation i b q = .ok x
      ↔ (b.currency = q.amount.currency ∧ b.amountMinor = q.amount.amountMinor
          ∧ b.expiresAt = q.expiresAt) ∧ reservationResult i b = x := by
  simp only [resolveExistingReservation, bind_eq_ok, raiseIf_eq_ok, pure_eq_ok, not_not]
  constructor
  · rintro ⟨-, hc, -, ha, -, he, hx⟩
    exact ⟨⟨hc, ha, he⟩, hx⟩
  · rintro ⟨⟨hc, ha, he⟩, hx⟩
    exact ⟨(), hc, (), ha, (), he, hx⟩

/-- Reading the hold of a source back, in the transaction or after a race
lost. -/
theorem reread_reserves {q : ReserveRequest} {i : Nat} {b r : BalanceReservation}
    {res : ReservationResult}
    (hfind : findReservationBySource db q.tenantId q.sourceType q.sourceId = some (i, b))
    (hr : lockReservation db q.tenantId i = .ok r)
    (hres : resolveExistingReservation i r q = .ok res) : Reserves db q (res, db) := by
  obtain ⟨hget, htenant, htype, hid⟩ := findReservationBySource_some hfind
  obtain rfl := Option.some.inj (hget.symm.trans (lockReservation_ok hr).1)
  obtain ⟨⟨hc, ha, he⟩, rfl⟩ := resolveExistingReservation_eq_ok.mp hres
  exact Reserves.replay i b hget ⟨htenant, htype, hid, ha, hc, he⟩

theorem reserveInTxn_reserves {q : ReserveRequest} {x : ReservationResult × Db}
    (h : reserveInTxn db q = .ok x) : Reserves db q x := by
  unfold reserveInTxn at h
  split at h
  · next i b hfind =>
      simp only [bind_eq_ok, pure_eq_ok] at h
      obtain ⟨w, -, r, hr, -, -, res, hres, rfl⟩ := h
      exact reread_reserves hfind hr hres
  · next hnone =>
      simp only [bind_eq_ok, raiseIf_eq_ok, pure_eq_ok] at h
      obtain ⟨⟨walletId, w⟩, hw, -, -, -, -, -, -, rfl⟩ := h
      rw [lockWalletForCurrency, orRaise_eq_ok] at hw
      obtain ⟨hget, hp⟩ := Table.find_some hw
      simp only [Bool.and_eq_true, beq_iff_eq] at hp
      exact Reserves.fresh walletId w hnone hget hp.1 hp.2

theorem resolveReservationRace_reserves {q : ReserveRequest} {x : ReservationResult × Db}
    (h : resolveReservationRace db q = .ok x) : Reserves db q x := by
  simp only [resolveReservationRace, bind_eq_ok, pure_eq_ok, orRaise_eq_ok] at h
  obtain ⟨⟨i, b⟩, hfind, w, -, r, hr, -, -, res, hres, rfl⟩ := h
  exact reread_reserves hfind hr hres

/-- The request as the transaction sees it: its source type normalized. -/
def ReserveRequest.normal (q : ReserveRequest) (sourceType : String) : ReserveRequest :=
  { q with sourceType }

/-- A reserve passes its input checks: it holds something, for a source it
can name, until a time to come. -/
structure Admissible (now : Nat) (q : ReserveRequest) (sourceType : String) : Prop where
  positive : 0 < q.amount.amountMinor
  source : normalizeSourceType q.sourceType = .ok sourceType
  future : now < q.expiresAt

theorem requireFutureUtc_eq_ok {expiresAt t : Nat} :
    requireFutureUtc now expiresAt = .ok t ↔ now < expiresAt ∧ expiresAt = t := by
  simp only [requireFutureUtc, bind_eq_ok, raiseIf_eq_ok, pure_eq_ok, not_le]
  constructor
  · rintro ⟨-, hlt, ht⟩
    exact ⟨hlt, ht⟩
  · rintro ⟨hlt, ht⟩
    exact ⟨(), hlt, ht⟩

theorem reserve_reserves {q : ReserveRequest} {x : ReservationResult × Db}
    (h : reserve now fault q db = .ok x) :
    ∃ sourceType, Admissible now q sourceType ∧ Reserves db (q.normal sourceType) x := by
  simp only [reserve, bind_eq_ok, raiseIf_eq_ok, requireFutureUtc_eq_ok] at h
  obtain ⟨-, hpos, sourceType, hsource, t, ⟨hfuture, rfl⟩, h⟩ := h
  refine ⟨sourceType, ⟨by omega, hsource, hfuture⟩, ?_⟩
  cases fault with
  | none => exact reserveInTxn_reserves h
  | uniqueViolation => exact resolveReservationRace_reserves h
  | database => cases h

theorem reserveInTransaction_reserves {tenantId sourceId expiresAt : Nat}
    {sourceType : String} {price : PriceSnapshot} {x : ReservationResult × Db}
    (h : reserveInTransaction now tenantId sourceType sourceId price expiresAt db
      = .ok x) :
    ∃ amount st, reservationAmount price = .ok amount
      ∧ Admissible now ⟨tenantId, sourceType, sourceId, amount, expiresAt⟩ st
      ∧ Reserves db ⟨tenantId, st, sourceId, amount, expiresAt⟩ x := by
  simp only [reserveInTransaction, bind_eq_ok, requireFutureUtc_eq_ok] at h
  obtain ⟨amount, hamount, st, hst, t, ⟨hfuture, rfl⟩, h⟩ := h
  exact ⟨amount, st, hamount, ⟨reservationAmount_pos hamount, hst, hfuture⟩,
    reserveInTxn_reserves h⟩

-- ============================================================= the books

/-- A source is held for once, in a wallet of its tenant and currency. -/
structure Books (db : Db) : Prop where
  placed : ∀ i b, db.reservations.get i = some b →
    ∃ w, db.wallets.get b.walletAccountId = some w ∧ w.tenantId = b.tenantId
      ∧ w.currency = b.currency
  distinct : ∀ i j b b', db.reservations.get i = some b →
    db.reservations.get j = some b' → SameSource b b' → i = j
  positive : ∀ i b, db.reservations.get i = some b → 0 < b.amountMinor

/-- Writes that open no hold keep the books. -/
theorem Books.frame (h : Books db) (hwallets : SameWallets db.wallets db'.wallets)
    (hold : ∀ i b', db'.reservations.get i = some b' →
      ∃ b, db.reservations.get i = some b ∧ SameTerms b b') : Books db' := by
  refine ⟨fun i b' hb' => ?_, fun i j b₁ b₂ hb₁ hb₂ hsame => ?_, fun i b' hb' => ?_⟩
  · obtain ⟨b, hb, hterms⟩ := hold i b' hb'
    obtain ⟨w, hw, hwt, hwc⟩ := h.placed i b hb
    obtain ⟨w', hw', ht, hc, -⟩ := hwallets _ w hw
    rw [hterms.wallet, hterms.source.1, hterms.currency]
    exact ⟨w', hw', ht.trans hwt, hc.trans hwc⟩
  · obtain ⟨b, hb, hterms⟩ := hold i b₁ hb₁
    obtain ⟨b', hb', hterms'⟩ := hold j b₂ hb₂
    refine h.distinct i j b b' hb hb' ⟨?_, ?_, ?_⟩
    · rw [← hterms.source.1, ← hterms'.source.1, hsame.1]
    · rw [← hterms.source.2.1, ← hterms'.source.2.1, hsame.2.1]
    · rw [← hterms.source.2.2, ← hterms'.source.2.2, hsame.2.2]
  · obtain ⟨b, hb, hterms⟩ := hold i b' hb'
    rw [hterms.amount]
    exact h.positive i b hb

theorem Books.reserves (h : Books db) {q : ReserveRequest} {x : ReservationResult × Db}
    (hx : Reserves db q x) (hpos : 0 < q.amount.amountMinor) : Books x.2 := by
  cases hx with
  | replay i b hb hasked => exact h
  | fresh walletId w hnone hw htenant hcurrency =>
      -- the only row that was not there is the hold
      have hrows : ∀ i b, (openHold db walletId w q).2.reservations.get i = some b →
          (i = db.reservations.nextId ∧ b.walletAccountId = walletId ∧ Asked q b)
            ∨ db.reservations.get i = some b := by
        intro i b hb
        obtain ⟨rfl, rfl⟩ | hb := Table.get_insert_cases hb
        · exact Or.inl ⟨rfl, rfl, rfl, rfl, rfl, rfl, rfl, rfl⟩
        · exact Or.inr hb
      have hother : ∀ i b b', db.reservations.get i = some b → Asked q b' →
          ¬ SameSource b b' := by
        intro i b b' hb hasked hsame
        have := Table.find_none hnone hb
        simp [← hsame.1, ← hsame.2.1, ← hsame.2.2, hasked.tenant, hasked.sourceType,
          hasked.sourceId] at this
      have hwallets : SameWallets db.wallets (openHold db walletId w q).2.wallets :=
        sameWallets_modify _ _ fun _ => ⟨rfl, rfl, rfl⟩
      refine ⟨fun i b hb => ?_, fun i j b b' hb hb' hsame => ?_, fun i b hb => ?_⟩
      · obtain ⟨-, hwallet, hasked⟩ | hb := hrows i b hb
        · obtain ⟨w', hw', ht, hc, -⟩ := hwallets _ w hw
          rw [hwallet]
          exact ⟨w', hw', (ht.trans htenant).trans hasked.tenant.symm,
            (hc.trans hcurrency).trans hasked.currency.symm⟩
        · obtain ⟨w₀, hw₀, hwt, hwc⟩ := h.placed i b hb
          obtain ⟨w', hw', ht, hc, -⟩ := hwallets _ w₀ hw₀
          exact ⟨w', hw', ht.trans hwt, hc.trans hwc⟩
      · obtain ⟨rfl, -, hasked⟩ | hb := hrows i b hb
        · obtain ⟨rfl, -, -⟩ | hb' := hrows j b' hb'
          · rfl
          · exact absurd ⟨hsame.1.symm, hsame.2.1.symm, hsame.2.2.symm⟩
              (hother j b' b hb' hasked)
        · obtain ⟨-, -, hasked⟩ | hb' := hrows j b' hb'
          · exact absurd hsame (hother i b b' hb hasked)
          · exact h.distinct i j b b' hb hb' hsame
      · obtain ⟨-, -, hasked⟩ | hb := hrows i b hb
        · rw [hasked.amount]
          exact_mod_cast hpos
        · exact h.positive i b hb

theorem Books.step (h : Books db) (call : Call) : Books (Billing.step db call) := by
  unfold Billing.step
  split
  · next db' hdb =>
      have hwrites := Call.perform_writes hdb
      cases call with
      | reserve now fault q =>
          simp only [Call.perform, bind_eq_ok, pure_eq_ok] at hdb
          obtain ⟨x, hx, rfl⟩ := hdb
          obtain ⟨sourceType, hok, hres⟩ := reserve_reserves hx
          exact h.reserves hres hok.positive
      | reserveInTransaction now tenantId sourceType sourceId price expiresAt commits =>
          simp only [Call.perform, bind_eq_ok, pure_eq_ok] at hdb
          obtain ⟨x, hx, rfl⟩ := hdb
          obtain ⟨amount, st, -, hok, hres⟩ := reserveInTransaction_reserves hx
          cases commits with
          | true => exact h.reserves hres hok.positive
          | false => exact h
      | capture now fault src q =>
          simp only [Call.perform, bind_eq_ok, pure_eq_ok] at hdb
          obtain ⟨x, hx, rfl⟩ := hdb
          refine h.frame hwrites.wallets fun i b' hb' => ?_
          obtain hsame | ⟨r, amount, -, -, -, hrow⟩ := capture_row hx
          · exact ⟨b', by rw [← hsame, hb'], SameTerms.refl b'⟩
          · obtain ⟨rfl, rfl⟩ | ⟨-, hb⟩ := hrow.cases hb'
            · exact ⟨r, hrow.old, ⟨⟨rfl, rfl, rfl⟩, rfl, rfl⟩, rfl, rfl⟩
            · exact ⟨b', hb, SameTerms.refl b'⟩
      | release now fault tenantId reservationId =>
          simp only [Call.perform, bind_eq_ok, pure_eq_ok] at hdb
          obtain ⟨x, hx, rfl⟩ := hdb
          refine h.frame hwrites.wallets fun i b' hb' => ?_
          obtain hsame | ⟨r, -, -, hrow⟩ := release_row hx
          · exact ⟨b', by rw [← hsame, hb'], SameTerms.refl b'⟩
          · obtain ⟨rfl, rfl⟩ | ⟨-, hb⟩ := hrow.cases hb'
            · exact ⟨r, hrow.old, ⟨⟨rfl, rfl, rfl⟩, rfl, rfl⟩, rfl, rfl⟩
            · exact ⟨b', hb, SameTerms.refl b'⟩
      | recordUsage u =>
          simp only [Call.perform, pure_eq_ok] at hdb
          subst hdb
          exact h.frame (SameWallets.refl _) fun i b hb => ⟨b, hb, SameTerms.refl b⟩
  · exact h

theorem books_run (h : Books db) (calls : List Call) : Books (run step db calls) :=
  run_invariant (fun _ call h => h.step call) h calls

theorem Opening.books (h : Opening initial) : Books initial := by
  have hnone : ∀ i b, initial.reservations.get i = some b → False := by
    intro i b hb
    rw [h.reservations, Table.get_empty] at hb
    cases hb
  exact ⟨fun i b hb => (hnone i b hb).elim, fun i _ b _ hb => (hnone i b hb).elim,
    fun i b hb => (hnone i b hb).elim⟩

-- ========================================================= a hold repeated

/-- What a settlement or a repeat looks up of a reservation. -/
theorem Books.lookups (h : Books db) {i : Nat} {b : BalanceReservation}
    (hb : db.reservations.get i = some b) :
    lockReservation db b.tenantId i = .ok b
      ∧ ∃ w, db.wallets.get b.walletAccountId = some w ∧ w.currency = b.currency
        ∧ lockWalletById db b.tenantId b.walletAccountId = .ok w
        ∧ assertWalletReservationMatch b.walletAccountId w b = .ok () := by
  obtain ⟨w, hw, hwt, hwc⟩ := h.placed i b hb
  refine ⟨?_, w, hw, hwc, ?_, ?_⟩
  · rw [lockReservation, orRaise_eq_ok, Option.filter_eq_some_iff]
    exact ⟨hb, by simp⟩
  · rw [lockWalletById, orRaise_eq_ok, Option.filter_eq_some_iff]
    exact ⟨hw, by simp [hwt]⟩
  · rw [assertWalletReservationMatch, raiseIf_eq_ok]
    simp [hwt, hwc]

/-- The lookup by source finds the one reservation of it. -/
theorem Books.found (h : Books db) {i : Nat} {b : BalanceReservation}
    (hb : db.reservations.get i = some b) :
    findReservationBySource db b.tenantId b.sourceType b.sourceId = some (i, b) := by
  cases hfind : findReservationBySource db b.tenantId b.sourceType b.sourceId with
  | none =>
      have := Table.find_none hfind hb
      simp at this
  | some e =>
      obtain ⟨j, b'⟩ := e
      obtain ⟨hb', hsame⟩ := findReservationBySource_some hfind
      obtain rfl := h.distinct i j b b' hb hb' hsame
      obtain rfl := Option.some.inj (hb.symm.trans hb')
      rfl

/-- A hold that went through left a reservation on the terms asked for. -/
theorem Reserves.held {q : ReserveRequest} {x : ReservationResult × Db}
    (h : Reserves db q x) :
    ∃ i b, x.2.reservations.get i = some b ∧ Asked q b ∧ x.1 = reservationResult i b := by
  cases h with
  | replay i b hb hasked => exact ⟨i, b, hb, hasked, rfl⟩
  | fresh walletId w hnone hw htenant hcurrency =>
      exact ⟨_, _, Table.get_insert_self _ _, ⟨rfl, rfl, rfl, rfl, rfl, rfl⟩, rfl⟩

theorem Asked.kept {q : ReserveRequest} {b b' : BalanceReservation} (h : Asked q b)
    (hterms : SameTerms b b') : Asked q b' where
  tenant := hterms.source.1.trans h.tenant
  sourceType := hterms.source.2.1.trans h.sourceType
  sourceId := hterms.source.2.2.trans h.sourceId
  amount := hterms.amount.trans h.amount
  currency := hterms.currency.trans h.currency
  expiry := hterms.expiry.trans h.expiry

/-- A request for a source that is held for is answered from the hold,
by the transaction and after a race lost. -/
theorem Books.reread (h : Books db) {q : ReserveRequest} {i : Nat}
    {b : BalanceReservation} (hb : db.reservations.get i = some b)
    (htenant : b.tenantId = q.tenantId) (htype : b.sourceType = q.sourceType)
    (hid : b.sourceId = q.sourceId) :
    reserveInTxn db q = (resolveExistingReservation i b q).map (·, db)
      ∧ resolveReservationRace db q = (resolveExistingReservation i b q).map (·, db) := by
  have hfound := h.found hb
  obtain ⟨hlock, w, -, -, hwallet, hmatch⟩ := h.lookups hb
  rw [htenant] at hlock hwallet
  rw [htenant, htype, hid] at hfound
  constructor
  · simp only [reserveInTxn, hfound, hwallet, hlock, hmatch, bind, Except.bind]
    cases resolveExistingReservation i b q <;> rfl
  · simp only [resolveReservationRace, hfound, orRaise, hwallet, hlock, hmatch, bind,
      Except.bind]
    cases resolveExistingReservation i b q <;> rfl

theorem Asked.resolved {q : ReserveRequest} {b : BalanceReservation} (h : Asked q b)
    (i : Nat) : resolveExistingReservation i b q = .ok (reservationResult i b) :=
  resolveExistingReservation_eq_ok.mpr ⟨⟨h.currency, h.amount, h.expiry⟩, rfl⟩

/-- Another amount than the held one is a conflict. -/
theorem resolveExistingReservation_conflict {q : ReserveRequest} {i : Nat}
    {b : BalanceReservation}
    (h : b.amountMinor ≠ q.amount.amountMinor ∨ b.currency ≠ q.amount.currency) :
    ∃ message, resolveExistingReservation i b q
      = .error (.conflict RESERVATION_IDEMPOTENCY_CONFLICT message) := by
  by_cases hcurrency : b.currency = q.amount.currency
  · refine ⟨"相同业务请求的金额参数不一致", ?_⟩
    have hamount := h.resolve_right (not_not.mpr hcurrency)
    simp only [resolveExistingReservation, bind_eq_error, raiseIf_eq_ok, raiseIf_eq_error]
    exact Or.inr ⟨(), not_not.mpr hcurrency, Or.inl ⟨hamount, trivial⟩⟩
  · refine ⟨"相同业务请求的金额参数不一致", ?_⟩
    simp only [resolveExistingReservation, bind_eq_error, raiseIf_eq_error]
    exact Or.inl ⟨hcurrency, trivial⟩

/-- An admissible reserve that the database lets through runs the
transaction, or reads back the hold it lost the race to. -/
theorem reserve_eq {q : ReserveRequest} {sourceType : String}
    (hok : Admissible now q sourceType) (hfault : fault ≠ .database) (db : Db) :
    reserve now fault q db = reserveInTxn db (q.normal sourceType)
      ∨ reserve now fault q db = resolveReservationRace db (q.normal sourceType) := by
  have hpos : raiseIf (q.amount.amountMinor ≤ 0) (BillingError.input
      "BILLING_INVALID_RESERVATION_AMOUNT" "预留金额必须大于零") = .ok () :=
    raiseIf_eq_ok.mpr (not_le.mpr hok.positive)
  have hfuture : requireFutureUtc now q.expiresAt = .ok q.expiresAt :=
    requireFutureUtc_eq_ok.mpr ⟨hok.future, rfl⟩
  cases fault with
  | none =>
      refine Or.inl ?_
      simp only [reserve, hpos, hok.source, hfuture, bind, Except.bind]
      rfl
  | uniqueViolation =>
      refine Or.inr ?_
      simp only [reserve, hpos, hok.source, hfuture, bind, Except.bind]
      rfl
  | database => exact absurd rfl hfault

theorem reserveInTransaction_eq {tenantId sourceId expiresAt : Nat} {sourceType st : String}
    {price : PriceSnapshot} {amount : Money} (hamount : reservationAmount price = .ok amount)
    (hst : normalizeSourceType sourceType = .ok st) (hfuture : now < expiresAt) :
    reserveInTransaction now tenantId sourceType sourceId price expiresAt db
      = reserveInTxn db ⟨tenantId, st, sourceId, amount, expiresAt⟩ := by
  have hfuture : requireFutureUtc now expiresAt = .ok expiresAt :=
    requireFutureUtc_eq_ok.mpr ⟨hfuture, rfl⟩
  simp only [reserveInTransaction, hamount, hst, hfuture, bind, Except.bind]

/-- Past its expiry a reserve is refused before it reads anything. -/
theorem requireFutureUtc_past {expiresAt : Nat} (h : expiresAt ≤ now) :
    requireFutureUtc now expiresAt
      = .error (.input "BILLING_INVALID_EXPIRY" "过期时间参数无效") := by
  simp only [requireFutureUtc, bind_eq_error, raiseIf_eq_error]
  exact Or.inl ⟨h, trivial⟩

-- ======================================================= the usage of a hold

/-- A charge written on a usage record. -/
def stamp (label : String) (charge : Money) (u : UsageRecord) : UsageRecord :=
  { u with pricingVersion := label, currency := charge.currency
           chargeAmountMinor := charge.amountMinor }

/-- What one call does to the usage records: nothing, a new record, or
the charge of the reservation it captured. -/
inductive UsageWrite (db db' : Db) : Prop
  | same (h : db'.usageRecords = db.usageRecords)
  | recorded (u : UsageRecord) (h : db'.usageRecords = db.usageRecords.insert u)
  | charged (i : Nat) (b b' : BalanceReservation) (k : Nat) (u : UsageRecord)
      (label : String) (charge : Money) (hb : db.reservations.get i = some b)
      (hb' : db'.reservations.get i = some b')
      (hcaptured : b'.capturedAmountMinor = some (charge.amountMinor : Int))
      (hu : usageForReservation db b.tenantId b = .ok (k, u))
      (h : db'.usageRecords = db.usageRecords.modify k (stamp label charge))

/-- A capture that is not priced leaves the usage records alone. -/
theorem capture_unpriced {q : CaptureRequest} {x : CaptureResult × Db} {actual : Money}
    (h : capture now fault src q db = .ok x) (hq : q.actual = some actual) :
    x.2.usageRecords = db.usageRecords := by
  simp only [capture, bind_eq_ok, mapError_eq_ok, raiseIf_eq_ok] at h
  obtain ⟨-, hinput, -, -, b, -, w, -, -, -, ⟨charge, priced⟩, hamount, -, -, -, -, d, -, h⟩
    := h
  have husage : q.usage = none := by simpa [hq] using hinput
  simp only [captureAmount, hq, husage, pure_eq_ok, Prod.mk.injEq] at hamount
  obtain ⟨rfl, rfl⟩ := hamount
  split at h
  · simp only [applyPricedUsage, bind_eq_ok, pure_eq_ok] at h
    obtain ⟨db₁, rfl, rfl⟩ := h
    rfl
  · simp only [applyPricedUsage, bind_eq_ok, pure_eq_ok] at h
    obtain ⟨-, -, -, -, db₁, rfl, rfl⟩ := h
    rfl

theorem capture_fault {q : CaptureRequest} {x : CaptureResult × Db}
    (h : capture now fault src q db = .ok x) : fault = .none := by
  simp only [capture, bind_eq_ok, raiseIf_eq_ok, not_not] at h
  obtain ⟨-, -, -, hfault, -⟩ := h
  exact hfault

theorem capture_usageWrite {q : CaptureRequest} {x : CaptureResult × Db}
    (h : capture now fault src q db = .ok x) : UsageWrite db x.2 := by
  obtain rfl := capture_fault h
  cases hq : q.actual with
  | some actual => exact UsageWrite.same (capture_unpriced h hq)
  | none =>
      obtain ⟨b, w, price, k, u, charge, label, hcap⟩ := capture_captured h hq
      have hrecorded := hcap.recorded
      rw [← hcap.tenant] at hrecorded
      obtain ⟨-, hcaptured, hsame⟩ | ⟨-, -, -, -, hrow⟩ := hcap.settled
      · refine UsageWrite.charged _ b b k u label charge hcap.reservation ?_ hcaptured
          hrecorded hcap.usages
        rw [hsame]
        exact hcap.reservation
      · exact UsageWrite.charged _ b _ k u label charge hcap.reservation hrow.new rfl
          hrecorded hcap.usages

theorem Reserves.usages {q : ReserveRequest} {x : ReservationResult × Db}
    (h : Reserves db q x) : x.2.usageRecords = db.usageRecords := by
  cases h with
  | replay i b hb hasked => rfl
  | fresh walletId w hnone hw htenant hcurrency => rfl

theorem step_usageWrite (db : Db) (call : Call) : UsageWrite db (step db call) := by
  unfold step
  split
  · next db' hdb =>
      cases call with
      | reserve now fault q =>
          simp only [Call.perform, bind_eq_ok, pure_eq_ok] at hdb
          obtain ⟨x, hx, rfl⟩ := hdb
          obtain ⟨sourceType, -, hres⟩ := reserve_reserves hx
          exact UsageWrite.same hres.usages
      | reserveInTransaction now tenantId sourceType sourceId price expiresAt commits =>
          simp only [Call.perform, bind_eq_ok, pure_eq_ok] at hdb
          obtain ⟨x, hx, rfl⟩ := hdb
          obtain ⟨amount, st, -, -, hres⟩ := reserveInTransaction_reserves hx
          cases commits with
          | true => exact UsageWrite.same hres.usages
          | false => exact UsageWrite.same rfl
      | capture now fault src q =>
          simp only [Call.perform, bind_eq_ok, pure_eq_ok] at hdb
          obtain ⟨x, hx, rfl⟩ := hdb
          exact capture_usageWrite hx
      | release now fault tenantId reservationId =>
          simp only [Call.perform, bind_eq_ok, pure_eq_ok] at hdb
          obtain ⟨x, hx, rfl⟩ := hdb
          exact UsageWrite.same (release_frame hx).1
      | recordUsage u =>
          simp only [Call.perform, pure_eq_ok] at hdb
          subst hdb
          exact UsageWrite.recorded u rfl
  · exact UsageWrite.same rfl

/-- The usage found for a hold is the one found after a charge was
written somewhere. -/
theorem usageForReservation_stamp {tenantId k : Nat} {b b' : BalanceReservation}
    {u : UsageRecord} {label : String} {charge : Money} {j : Nat}
    (hsame : SameSource b b') (hu : usageForReservation db tenantId b = .ok (k, u))
    (hdb : db'.usageRecords = db.usageRecords.modify j (stamp label charge)) :
    usageForReservation db' tenantId b'
      = .ok (k, if j = k then stamp label charge u else u) := by
  obtain ⟨-, -, hsource⟩ := usageForReservation_ok hu
  have hsource' : b'.usageSource? = some u.source := by
    rw [← hsource]
    unfold BalanceReservation.usageSource?
    rw [hsame.2.1, hsame.2.2]
  rw [usageForReservation_eq hsource, orRaise_eq_ok] at hu
  rw [usageForReservation_eq hsource', orRaise_eq_ok, hdb]
  exact Table.find_modify (f := stamp label charge) hu (fun _ => rfl) j

/-- A usage priced at the captured amount stays so. -/
theorem UsageWrite.priced (h : UsageWrite db db') (hbooks : Books db)
    (hkept : Kept db db') {i k : Nat} {b : BalanceReservation} {u : UsageRecord} {c : Nat}
    (hb : db.reservations.get i = some b) (hsettled : b.status ≠ .pending)
    (hcaptured : b.capturedAmountMinor = some (c : Int))
    (hu : usageForReservation db b.tenantId b = .ok (k, u)) (hc : u.chargeAmountMinor = c) :
    ∃ u', usageForReservation db' b.tenantId b = .ok (k, u') ∧ u'.usage = u.usage
      ∧ u'.chargeAmountMinor = c := by
  have hsource := (usageForReservation_ok hu).2.2
  cases h with
  | same h =>
      refine ⟨u, ?_, rfl, hc⟩
      rw [usageForReservation_eq hsource] at hu ⊢
      rw [h, hu]
  | recorded v h =>
      refine ⟨u, ?_, rfl, hc⟩
      rw [usageForReservation_eq hsource, orRaise_eq_ok] at hu ⊢
      rw [h]
      exact Table.find_insert hu v
  | charged j r r' l v label charge hr hr' hcharge hv h =>
      have hnew := usageForReservation_stamp ⟨rfl, rfl, rfl⟩ hu h
      by_cases hl : l = k
      · -- the charge was written on this usage, so for this reservation
        subst hl
        obtain ⟨hvget, hvt, hvsource⟩ := usageForReservation_ok hv
        obtain ⟨huget, hut, -⟩ := usageForReservation_ok hu
        obtain rfl := Option.some.inj (huget.symm.trans hvget)
        obtain ⟨htype, hid⟩ := usageSource?_inj hsource hvsource
        obtain rfl := hbooks.distinct i j b r hb hr ⟨hvt.symm.trans hut, htype, hid⟩
        obtain rfl := Option.some.inj (hb.symm.trans hr)
        -- whose row did not move
        obtain ⟨b', hb', -, hfixed⟩ := hkept _ b hb
        obtain rfl := Option.some.inj (hr'.symm.trans hb')
        rw [hfixed hsettled, hcaptured] at hcharge
        have hcharge : c = charge.amountMinor := by
          exact_mod_cast Option.some.inj hcharge
        rw [if_pos rfl] at hnew
        exact ⟨_, hnew, rfl, hcharge.symm⟩
      · rw [if_neg hl] at hnew
        exact ⟨u, hnew, rfl, hc⟩

-- ==================================================== a settlement repeated

/-- What a repeat of a capture reads: the reservation it committed, at
the amount it comes to again. -/
structure Taken (src : Sources) (db : Db) (q : CaptureRequest) (b : BalanceReservation)
    (charge : Money) : Prop where
  row : db.reservations.get q.reservationId = some b
  tenant : b.tenantId = q.tenantId
  status : b.status = .committed
  captured : b.capturedAmountMinor = some (charge.amountMinor : Int)
  currency : charge.currency = b.currency
  amount : (q.actual = some charge ∧ q.usage = none)
    ∨ (q.actual = none ∧ ∃ price k u label,
        priceForReservation src q.tenantId b = .ok price
        ∧ usageForReservation db q.tenantId b = .ok (k, u)
        ∧ chargeForUsage price (q.usage.getD u.usage) = .ok charge
        ∧ pricingVersion price = .ok label ∧ u.chargeAmountMinor = charge.amountMinor)

theorem Taken.step {q : CaptureRequest} {b : BalanceReservation} {charge : Money}
    (h : Taken src db q b charge) (hbooks : Books db) (call : Call) :
    Taken src (Billing.step db call) q b charge := by
  have hkept := (step_writes db call).kept
  have hsettled : b.status ≠ .pending := by simp [h.status]
  obtain ⟨b', hb', -, hfixed⟩ := hkept _ b h.row
  obtain rfl := hfixed hsettled
  refine { row := hb', tenant := h.tenant, status := h.status, captured := h.captured
           currency := h.currency, amount := ?_ }
  obtain hgiven | ⟨hq, price, k, u, label, hprice, hu, hcharge, hlabel, hc⟩ := h.amount
  · exact Or.inl hgiven
  · rw [← h.tenant] at hu
    obtain ⟨u', hu', hsame, hc'⟩ := (step_usageWrite db call).priced hbooks hkept h.row
      hsettled h.captured hu hc
    rw [h.tenant] at hu'
    exact Or.inr ⟨hq, price, k, u', label, hprice, hu', by rw [hsame]; exact hcharge,
      hlabel, hc'⟩

theorem Taken.run {q : CaptureRequest} {b : BalanceReservation} {charge : Money}
    (h : Taken src db q b charge) (hbooks : Books db) (calls : List Call) :
    Taken src (run Billing.step db calls) q b charge := by
  have hstep : ∀ db call, Taken src db q b charge ∧ Books db →
      Taken src (Billing.step db call) q b charge ∧ Books (Billing.step db call) :=
    fun _ call h => ⟨h.1.step h.2 call, h.2.step call⟩
  exact (run_invariant hstep ⟨h, hbooks⟩ calls).1

theorem Taken.extend {q : CaptureRequest} {b : BalanceReservation} {charge : Money}
    (h : Taken src db q b charge) (hsrc : src.Extends src') : Taken src' db q b charge := by
  refine { h with amount := ?_ }
  obtain hgiven | ⟨hq, price, k, u, label, hprice, hrest⟩ := h.amount
  · exact Or.inl hgiven
  · exact Or.inr ⟨hq, price, k, u, label, hsrc.price hprice, hrest⟩

theorem decideCapture_split {status : ReservationStatus} {reserved actual : Int}
    {captured : Option Int} {d : CaptureDecision}
    (h : decideCapture status reserved actual captured = .ok d) :
    d.releasedMinor = reserved - actual := by
  simp only [decideCapture, requireNonnegativeInteger, bind_eq_ok, raiseIf_eq_ok] at h
  obtain ⟨-, -, -, -, -, -, h⟩ := h
  split at h
  · simp only [bind_eq_ok, raiseIf_eq_ok, pure_eq_ok] at h
    obtain ⟨-, -, rfl⟩ := h
    rfl
  · simp only [bind_eq_ok, raiseIf_eq_ok, pure_eq_ok] at h
    obtain ⟨-, -, -, -, rfl⟩ := h
    rfl

/-- A price that a charge was written at has a label. -/
theorem applyPricedUsage_label {priced : Option (Nat × UsageRecord × PriceSnapshot)}
    {charge : Money} (h : applyPricedUsage db priced charge = .ok db') {k : Nat}
    {u : UsageRecord} {price : PriceSnapshot} (hpriced : priced = some (k, u, price)) :
    ∃ label, pricingVersion price = .ok label := by
  subst hpriced
  obtain ⟨label, hlabel, -, -⟩ := applyUsageCharge_eq_ok.mp h
  exact ⟨label, hlabel⟩

/-- The row and the amounts a capture leaves. -/
theorem capture_result {q : CaptureRequest} {x : CaptureResult × Db}
    (h : capture now fault src q db = .ok x) :
    ∃ b b' charge priced, db.reservations.get q.reservationId = some b
      ∧ x.2.reservations.get q.reservationId = some b' ∧ SameTerms b b'
      ∧ b.tenantId = q.tenantId ∧ b'.status = .committed
      ∧ b'.capturedAmountMinor = some (charge.amountMinor : Int)
      ∧ charge.currency = b.currency ∧ captureAmount src db q b = .ok (charge, priced)
      ∧ (∀ k u price, priced = some (k, u, price) →
          ∃ label, pricingVersion price = .ok label)
      ∧ ¬ (q.actual.isSome = true ∧ q.usage.isSome = true)
      ∧ x.1.reservation = reservationResult q.reservationId b'
      ∧ x.1.chargedMinor = charge.amountMinor
      ∧ x.1.releasedMinor = b'.amountMinor - charge.amountMinor := by
  simp only [capture, bind_eq_ok, mapError_eq_ok, raiseIf_eq_ok, not_not,
    assertWalletReservationMatch] at h
  obtain ⟨-, hinput, -, -, b, hb, w, hw, -, hmatch, ⟨charge, priced⟩, hamount, -, hcurrency,
    -, -, d, hd, h⟩ := h
  obtain ⟨hb, htenant⟩ := lockReservation_ok hb
  have hcurrency : charge.currency = b.currency := by
    rw [hcurrency]
    exact not_not.mp fun hne => hmatch (Or.inr (Or.inr hne))
  have hsplit := decideCapture_split hd
  obtain ⟨hcharged, ⟨hidem, hst, hcap⟩ | ⟨hfresh, -, -⟩⟩ := decideCapture_ok hd
  · simp only [hidem, if_true, bind_eq_ok, pure_eq_ok] at h
    obtain ⟨db₁, happly, rfl⟩ := h
    obtain ⟨us, hdb⟩ := applyPricedUsage_ok happly
    exact ⟨b, b, charge, priced, hb, by rw [hdb]; exact hb, SameTerms.refl b, htenant, hst, hcap, hcurrency,
      hamount, fun _ _ _ => applyPricedUsage_label happly, hinput, rfl, hcharged, hsplit⟩
  · simp only [hfresh, Bool.false_eq_true, if_false, bind_eq_ok, pure_eq_ok] at h
    obtain ⟨-, -, -, -, db₁, happly, rfl⟩ := h
    obtain ⟨us, hdb⟩ := applyPricedUsage_ok happly
    refine ⟨b, { b with status := .committed, capturedAmountMinor := some d.chargedMinor
                        committedAt := some now }, charge, priced, hb,
      by rw [hdb]; exact (Table.replaced_modify hb _).new, ⟨⟨⟨rfl, rfl, rfl⟩, rfl, rfl⟩, rfl, rfl⟩, htenant, rfl,
      ?_, hcurrency, hamount, fun _ _ _ => applyPricedUsage_label happly, hinput, rfl,
      hcharged, hsplit⟩
    rw [hcharged]

/-- A capture that went through can be repeated at once. -/
theorem capture_taken {q : CaptureRequest} {x : CaptureResult × Db}
    (h : capture now fault src q db = .ok x) :
    ∃ b charge, Taken src x.2 q b charge
      ∧ x.1.reservation = reservationResult q.reservationId b
      ∧ x.1.chargedMinor = charge.amountMinor
      ∧ x.1.releasedMinor = b.amountMinor - charge.amountMinor := by
  obtain ⟨b, b', charge, priced, hb, hb', hterms, htenant, hstatus, hcaptured, hcurrency,
    hamount, hlabels, hinput, hresult⟩ := capture_result h
  refine ⟨b', charge,
    { row := hb', tenant := hterms.source.1.trans htenant, status := hstatus
      captured := hcaptured, currency := hcurrency.trans hterms.currency.symm
      amount := ?_ }, hresult⟩
  obtain rfl := capture_fault h
  cases hq : q.actual with
  | some actual =>
      have husage : q.usage = none := by simpa [hq] using hinput
      simp only [captureAmount, hq, husage, pure_eq_ok, Prod.mk.injEq] at hamount
      rw [hamount.1]
      exact Or.inl ⟨rfl, husage⟩
  | none =>
      obtain ⟨r, w, price, k, u, charge', label, hcap⟩ := capture_captured h hq
      obtain rfl := Option.some.inj (hb.symm.trans hcap.reservation)
      have hsame := (captureAmount_priced hq).mpr
        ⟨price, k, u, hcap.accepted, hcap.recorded, hcap.charged, rfl⟩
      obtain ⟨rfl, rfl⟩ := Prod.mk.inj (Except.ok.inj (hamount.symm.trans hsame))
      obtain ⟨label', hlabel⟩ := hlabels k u price rfl
      have hu := usageForReservation_stamp hterms.source hcap.recorded hcap.usages
      rw [if_pos rfl] at hu
      refine Or.inr ⟨rfl, price, k, stamp label charge u, label', ?_, hu, hcap.charged,
        hlabel, rfl⟩
      rw [priceForReservation_congr hterms.source]
      exact hcap.accepted

/-- The repeat of a capture returns what the capture returned, and writes
no more than the charge of its usage again. -/
theorem Taken.replays {q : CaptureRequest} {b : BalanceReservation} {charge : Money}
    (h : Taken src db q b charge) (hbooks : Books db) (now : Nat) :
    ∃ us, capture now .none src q db
      = .ok ({ reservation := reservationResult q.reservationId b
               chargedMinor := charge.amountMinor
               releasedMinor := b.amountMinor - charge.amountMinor, idempotent := true },
             { db with usageRecords := us }) := by
  obtain ⟨hlock, w, hw, hwc, hwallet, hmatch⟩ := hbooks.lookups h.row
  rw [h.tenant] at hlock hwallet
  have hpos := hbooks.positive _ b h.row
  have hdecide : decideCapture b.status b.amountMinor charge.amountMinor
      b.capturedAmountMinor
      = .ok ⟨charge.amountMinor, b.amountMinor - charge.amountMinor, true⟩ := by
    simp only [decideCapture, requireNonnegativeInteger, bind_eq_ok, raiseIf_eq_ok]
    refine ⟨(), by omega, (), by omega, (), by omega, ?_⟩
    simp only [h.status, if_true, h.captured, bind_eq_ok, raiseIf_eq_ok, pure_eq_ok]
    exact ⟨(), by simp, trivial⟩
  obtain ⟨priced, us, hinput, hamount, happly⟩ : ∃ priced us,
      ¬ (q.actual.isSome = true ∧ q.usage.isSome = true)
        ∧ captureAmount src db q b = .ok (charge, priced)
        ∧ applyPricedUsage db priced charge = .ok { db with usageRecords := us } := by
    obtain ⟨hq, husage⟩ | ⟨hq, price, k, u, label, hprice, hu, hcharge, hlabel, hc⟩ :=
      h.amount
    · exact ⟨none, db.usageRecords, by simp [husage], by simp [captureAmount, hq, husage],
        rfl⟩
    · exact ⟨some (k, u, price), _, by simp [hq],
        (captureAmount_priced hq).mpr ⟨price, k, u, hprice, hu, hcharge, rfl⟩,
        applyUsageCharge_eq_ok.mpr ⟨label, hlabel, Or.inr hc, rfl⟩⟩
  refine ⟨us, ?_⟩
  simp only [capture, bind_eq_ok, mapError_eq_ok, raiseIf_eq_ok]
  refine ⟨(), hinput, (), by simp, b, hlock, w, hwallet, (), hmatch, _, hamount, (), ?_, (),
    by simp [h.status], _, hdecide, ?_⟩
  · simp [h.currency, hwc]
  · simp only [if_true, bind_eq_ok, pure_eq_ok]
    exact ⟨_, happly, rfl⟩

theorem decideRelease_ok {status : ReservationStatus} {reserved : Int} {d : ReleaseDecision}
    (h : decideRelease status reserved = .ok d) :
    d.releasedMinor = reserved ∧ (d.idempotent = true → status = .released) := by
  simp only [decideRelease, requireNonnegativeInteger, bind_eq_ok, raiseIf_eq_ok] at h
  obtain ⟨-, -, -, -, h⟩ := h
  split at h
  · next hst =>
      rw [pure_eq_ok] at h
      subst h
      exact ⟨rfl, fun _ => hst⟩
  · simp only [bind_eq_ok, raiseIf_eq_ok, pure_eq_ok] at h
    obtain ⟨-, -, rfl⟩ := h
    exact ⟨rfl, fun hd => by cases hd⟩

/-- The row and the amount a release leaves. -/
theorem release_freed {tenantId i : Nat} {x : ReleaseResult × Db}
    (h : release now fault tenantId i db = .ok x) :
    ∃ b, x.2.reservations.get i = some b ∧ b.tenantId = tenantId ∧ b.status = .released
      ∧ x.1.reservation = reservationResult i b ∧ x.1.releasedMinor = b.amountMinor := by
  simp only [release, bind_eq_ok, mapError_eq_ok] at h
  obtain ⟨-, -, b, hb, w, hw, -, -, d, hd, h⟩ := h
  obtain ⟨hb, htenant⟩ := lockReservation_ok hb
  obtain ⟨hreleased, hreplay⟩ := decideRelease_ok hd
  split at h
  · next hidem =>
      rw [pure_eq_ok] at h
      subst h
      exact ⟨b, hb, htenant, hreplay hidem, rfl, hreleased⟩
  · simp only [bind_eq_ok, pure_eq_ok] at h
    obtain ⟨-, -, rfl⟩ := h
    exact ⟨_, (Table.replaced_modify hb _).new, htenant, rfl, rfl, hreleased⟩

/-- A release decides on the row alone. -/
theorem Books.release_eq (h : Books db) {i : Nat} {b : BalanceReservation}
    (hb : db.reservations.get i = some b) (hsettled : b.status ≠ .pending) (now : Nat) :
    release now .none b.tenantId i db
      = if b.status = .released then
          .ok (⟨reservationResult i b, b.amountMinor, true⟩, db)
        else .error (.conflict RELEASE_CONFLICT "该预留当前不可释放") := by
  obtain ⟨hlock, w, -, -, hwallet, hmatch⟩ := h.lookups hb
  have hpos := h.positive i b hb
  by_cases hst : b.status = .released
  · rw [if_pos hst]
    simp only [release, bind_eq_ok, mapError_eq_ok, raiseIf_eq_ok]
    refine ⟨(), by simp, b, hlock, w, hwallet, (), hmatch, ⟨b.amountMinor, true⟩, ?_, rfl⟩
    simp only [decideRelease, requireNonnegativeInteger, bind_eq_ok, raiseIf_eq_ok,
      if_pos hst]
    exact ⟨(), by omega, (), by omega, rfl⟩
  · rw [if_neg hst]
    simp only [release, bind_eq_error, raiseIf_eq_ok]
    refine Or.inr ⟨(), by simp, Or.inr ⟨b, hlock, Or.inr ⟨w, hwallet, Or.inr ⟨(), hmatch,
      Or.inl ?_⟩⟩⟩⟩
    rw [mapError_eq_error]
    refine ⟨.invalidReservationTransition "reservation is not pending", ?_, ?_⟩
    · simp only [decideRelease, requireNonnegativeInteger, bind_eq_error, raiseIf_eq_ok,
        if_neg hst]
      refine Or.inr ⟨(), by omega, Or.inr ⟨(), by omega, Or.inl ?_⟩⟩
      rw [raiseIf_eq_error]
      exact ⟨hsettled, rfl⟩
    · unfold releaseTransitionError
      cases hcase : b.status with
      | pending => exact absurd hcase hsettled
      | committed => rfl
      | released => exact absurd hcase hst
      | expired => rfl

/-- A committed hold is captured again at its amount only, another
settled one not at all. -/
theorem decideCapture_refused {status : ReservationStatus} {reserved actual : Int}
    {captured : Option Int} (hpos : 0 < reserved) (hact : 0 ≤ actual)
    (hsettled : status ≠ .pending) (hother : status = .committed → captured ≠ some actual) :
    ∃ message, decideCapture status reserved actual captured
      = .error (.invalidReservationTransition message) := by
  by_cases hst : status = .committed
  · refine ⟨"committed capture amount differs", ?_⟩
    simp only [decideCapture, requireNonnegativeInteger, bind_eq_error, raiseIf_eq_ok,
      if_pos hst]
    refine Or.inr ⟨(), by omega, Or.inr ⟨(), by omega, Or.inr ⟨(), by omega, Or.inl ?_⟩⟩⟩
    rw [raiseIf_eq_error]
    exact ⟨hother hst, rfl⟩
  · refine ⟨"reservation is not pending", ?_⟩
    simp only [decideCapture, requireNonnegativeInteger, bind_eq_error, raiseIf_eq_ok,
      if_neg hst]
    refine Or.inr ⟨(), by omega, Or.inr ⟨(), by omega, Or.inr ⟨(), by omega, Or.inl ?_⟩⟩⟩
    rw [raiseIf_eq_error]
    exact ⟨hsettled, rfl⟩

/-- A capture that comes to an amount the reservation was not settled at
is refused. -/
theorem Books.capture_refused (h : Books db) {q : CaptureRequest} {b : BalanceReservation}
    {charge : Money} {priced : Option (Nat × UsageRecord × PriceSnapshot)}
    (hb : db.reservations.get q.reservationId = some b) (htenant : b.tenantId = q.tenantId)
    (hinput : ¬ (q.actual.isSome = true ∧ q.usage.isSome = true))
    (hamount : captureAmount src db q b = .ok (charge, priced))
    (hsettled : b.status ≠ .pending)
    (hother : b.status = .committed → b.capturedAmountMinor ≠ some (charge.amountMinor : Int))
    (now : Nat) :
    ∃ code message, capture now .none src q db = .error (.conflict code message) := by
  obtain ⟨hlock, w, -, -, hwallet, hmatch⟩ := h.lookups hb
  rw [htenant] at hlock hwallet
  have hpos := h.positive _ b hb
  by_cases hcurrency : charge.currency = w.currency
  · obtain ⟨message, hdecide⟩ := decideCapture_refused hpos (Int.natCast_nonneg _) hsettled
      hother
    obtain ⟨code, text, hcode⟩ : ∃ code text, captureTransitionError charge b
        (.invalidReservationTransition message) = .conflict code text := by
      unfold captureTransitionError
      cases hcase : b.status with
      | pending => exact absurd hcase hsettled
      | committed => exact ⟨_, _, rfl⟩
      | released => exact ⟨_, _, rfl⟩
      | expired => exact ⟨_, _, rfl⟩
    refine ⟨code, text, ?_⟩
    simp only [capture, bind_eq_error, raiseIf_eq_ok]
    refine Or.inr ⟨(), hinput, Or.inr ⟨(), by simp, Or.inr ⟨b, hlock, Or.inr ⟨w, hwallet,
      Or.inr ⟨(), hmatch, Or.inr ⟨_, hamount, Or.inr ⟨(), by simp [hcurrency], Or.inr
      ⟨(), by simp [hsettled], Or.inl ?_⟩⟩⟩⟩⟩⟩⟩⟩
    rw [mapError_eq_error]
    exact ⟨_, hdecide, hcode⟩
  · refine ⟨CURRENCY_MISMATCH, "结算货币不一致", ?_⟩
    simp only [capture, bind_eq_error, raiseIf_eq_ok]
    refine Or.inr ⟨(), hinput, Or.inr ⟨(), by simp, Or.inr ⟨b, hlock, Or.inr ⟨w, hwallet,
      Or.inr ⟨(), hmatch, Or.inr ⟨_, hamount, Or.inl ?_⟩⟩⟩⟩⟩⟩
    rw [raiseIf_eq_error]
    exact ⟨hcurrency, rfl⟩

/-- A capture without an amount to settle at is an invariant error. -/
theorem Books.capture_unpriceable (h : Books db) {q : CaptureRequest}
    {b : BalanceReservation} {e : BillingError}
    (hb : db.reservations.get q.reservationId = some b) (htenant : b.tenantId = q.tenantId)
    (hinput : ¬ (q.actual.isSome = true ∧ q.usage.isSome = true))
    (hamount : captureAmount src db q b = .error e) (now : Nat) :
    capture now .none src q db = .error .invariant := by
  obtain ⟨hlock, w, -, -, hwallet, hmatch⟩ := h.lookups hb
  rw [htenant] at hlock hwallet
  obtain rfl := captureAmount_raises src q b e hamount
  simp only [capture, bind_eq_error, raiseIf_eq_ok]
  exact Or.inr ⟨(), hinput, Or.inr ⟨(), by simp, Or.inr ⟨b, hlock, Or.inr ⟨w, hwallet,
    Or.inr ⟨(), hmatch, Or.inl hamount⟩⟩⟩⟩⟩

-- ============================================================= the runs

/-- The call raises a conflict and leaves the tables as they were. -/
def Refused (db : Db) (call : Call) : Prop :=
  (∃ code message, call.perform db = .error (.conflict code message)) ∧ step db call = db

/-- What repeating a call made in `db` comes to, at any time and after any
other calls, and what a call that contradicts a settlement comes to. -/
structure ReplaySafe (db : Db) : Prop where
  captures : ∀ now fault src q x, capture now fault src q db = .ok x →
    ∀ later now' src', src.Extends src' →
      ∃ us, capture now' .none src' q (run step x.2 later)
        = .ok ({ x.1 with idempotent := true },
            { run step x.2 later with usageRecords := us })
  releases : ∀ now fault tenantId id x, release now fault tenantId id db = .ok x →
    ∀ later now', release now' .none tenantId id (run step x.2 later)
      = .ok ({ x.1 with idempotent := true }, run step x.2 later)
  reserves : ∀ now fault q x, reserve now fault q db = .ok x →
    ∀ later now' fault', fault' ≠ .database →
      (now' < q.expiresAt → ∃ status, reserve now' fault' q (run step x.2 later)
        = .ok ({ x.1 with status }, run step x.2 later))
      ∧ (q.expiresAt ≤ now' → ∃ code message, reserve now' fault' q (run step x.2 later)
        = .error (.input code message))
  acceptances : ∀ now tenantId sourceType sourceId price expiresAt x,
    reserveInTransaction now tenantId sourceType sourceId price expiresAt db = .ok x →
    ∀ later now',
      (now' < expiresAt → ∃ status, reserveInTransaction now' tenantId sourceType sourceId
          price expiresAt (run step x.2 later)
        = .ok ({ x.1 with status }, run step x.2 later))
      ∧ (expiresAt ≤ now' → ∃ code message, reserveInTransaction now' tenantId sourceType
          sourceId price expiresAt (run step x.2 later)
        = .error (.input code message))
  /-- A reserve of a held source at another amount. -/
  otherHold : ∀ i b, db.reservations.get i = some b → ∀ now fault q,
    q.tenantId = b.tenantId → q.sourceId = b.sourceId → Admissible now q b.sourceType →
    b.amountMinor ≠ q.amount.amountMinor ∨ b.currency ≠ q.amount.currency →
    fault ≠ .database → Refused db (.reserve now fault q)
  otherAcceptance : ∀ i b, db.reservations.get i = some b →
    ∀ now sourceType price amount expiresAt commits,
    reservationAmount price = .ok amount →
    normalizeSourceType sourceType = .ok b.sourceType → now < expiresAt →
    b.amountMinor ≠ amount.amountMinor ∨ b.currency ≠ amount.currency →
    Refused db (.reserveInTransaction now b.tenantId sourceType b.sourceId price expiresAt
      commits)
  /-- A capture of a released hold, or of a captured one at another
  amount. -/
  otherCapture : ∀ now src q b charge priced,
    db.reservations.get q.reservationId = some b → b.tenantId = q.tenantId →
    ¬ (q.actual.isSome = true ∧ q.usage.isSome = true) →
    captureAmount src db q b = .ok (charge, priced) → b.status ≠ .pending →
    (b.status = .committed → b.capturedAmountMinor ≠ some (charge.amountMinor : Int)) →
    Refused db (.capture now .none src q)
  /-- A capture that has no amount to settle at. -/
  noAmount : ∀ now src q b e,
    db.reservations.get q.reservationId = some b → b.tenantId = q.tenantId →
    ¬ (q.actual.isSome = true ∧ q.usage.isSome = true) →
    captureAmount src db q b = .error e →
    capture now .none src q db = .error .invariant
      ∧ step db (.capture now .none src q) = db
  /-- A release of a captured hold. -/
  otherRelease : ∀ now i b, db.reservations.get i = some b → b.status = .committed →
    Refused db (.release now .none b.tenantId i)
  /-- No reservation is both debited and released in full. -/
  exclusive : ∀ i b, db.reservations.get i = some b →
    ¬ ((∃ e ∈ entriesOf db i, e.entryType = .debit)
      ∧ ∃ e ∈ entriesOf db i, e.entryType = .release ∧ e.amountMinor = b.amountMinor)

theorem refused_of_error {call : Call}
    (h : ∃ code message, call.perform db = .error (.conflict code message)) :
    Refused db call := by
  obtain ⟨code, message, hconflict⟩ := h
  exact ⟨⟨code, message, hconflict⟩, by simp [step, hconflict]⟩

/-- The rows of a settled hold debit some of it or release all of it. -/
theorem Conserved.exclusive (h : Conserved initial db) {i : Nat} {b : BalanceReservation}
    (hb : db.reservations.get i = some b) :
    ¬ ((∃ e ∈ entriesOf db i, e.entryType = .debit)
      ∧ ∃ e ∈ entriesOf db i, e.entryType = .release ∧ e.amountMinor = b.amountMinor) := by
  rintro ⟨⟨d, hd, hdebit⟩, e, he, hrelease, hfull⟩
  have hentries := h.entries i b hb
  have hd : (EntryType.debit, d.amountMinor) ∈ expectedEntries b := by
    rw [← hentries, ← hdebit]
    exact List.mem_map_of_mem hd
  have he : (EntryType.release, b.amountMinor) ∈ expectedEntries b := by
    rw [← hentries, ← hrelease, ← hfull]
    exact List.mem_map_of_mem he
  cases hst : b.status with
  | pending => simp [expectedEntries, hst] at hd
  | released => simp [expectedEntries, hst] at hd
  | expired => simp [expectedEntries, hst] at hd
  | committed =>
      -- a debit is positive, and what it leaves is not the whole hold
      simp only [expectedEntries, hst, rowIfPos, List.mem_cons, List.mem_append,
        List.mem_ite_nil_right, List.not_mem_nil, or_false, Prod.mk.injEq, reduceCtorEq,
        false_and, false_or, and_false, true_and] at hd he
      omega

theorem step_of_ok {call : Call} (h : call.perform db = .ok db') : step db call = db' := by
  rw [step, h]

theorem capture_perform {q : CaptureRequest} {x : CaptureResult × Db}
    (h : capture now fault src q db = .ok x) :
    (Call.capture now fault src q).perform db = .ok x.2 := by
  simp only [Call.perform, bind_eq_ok, pure_eq_ok]
  exact ⟨x, h, rfl⟩

theorem release_perform {tenantId i : Nat} {x : ReleaseResult × Db}
    (h : release now fault tenantId i db = .ok x) :
    (Call.release now fault tenantId i).perform db = .ok x.2 := by
  simp only [Call.perform, bind_eq_ok, pure_eq_ok]
  exact ⟨x, h, rfl⟩

/-- A hold asked for again is the hold there is, in the status it has
reached. -/
theorem held_later {q : ReserveRequest} {x : ReservationResult × Db}
    (hx : Reserves db q x) (later : List Call) :
    ∃ i b, (run step x.2 later).reservations.get i = some b ∧ Asked q b
      ∧ reservationResult i b = { x.1 with status := b.status } := by
  obtain ⟨i, b, hb, hasked, hresult⟩ := hx.held
  obtain ⟨b', hb', hterms, -⟩ := kept_run x.2 later i b hb
  refine ⟨i, b', hb', hasked.kept hterms, ?_⟩
  rw [hresult]
  simp only [reservationResult, hterms.source.1, hterms.source.2.1, hterms.source.2.2,
    hterms.amount, hterms.currency, hterms.expiry]

/-- What each kind of call comes to when it is repeated, in tables whose
books are kept and whose ledger agrees with them. -/
theorem replaySafe_of_books (h : Books db) (hc : Conserved initial db) : ReplaySafe db where
  captures := by
    intro now fault src q x hx later now' src' hsrc
    obtain ⟨b, charge, htaken, hres, hcharged, hreleased⟩ := capture_taken hx
    have hbooks : Books x.2 := by
      have := h.step (.capture now fault src q)
      rwa [step_of_ok (capture_perform hx)] at this
    have hlater := (htaken.run hbooks later).extend hsrc
    obtain ⟨us, hagain⟩ := hlater.replays (books_run hbooks later) now'
    refine ⟨us, hagain.trans ?_⟩
    rw [← hreleased, ← hres, ← hcharged]
  releases := by
    intro now fault tenantId id x hx later now'
    obtain ⟨b, hb, rfl, hst, hres, hreleased⟩ := release_freed hx
    have hbooks : Books x.2 := by
      have := h.step (.release now fault b.tenantId id)
      rwa [step_of_ok (release_perform hx)] at this
    have hsettled : b.status ≠ .pending := by simp [hst]
    obtain ⟨b', hb', -, hfixed⟩ := kept_run x.2 later id b hb
    obtain rfl := hfixed hsettled
    rw [(books_run hbooks later).release_eq hb' hsettled, if_pos hst, ← hres, ← hreleased]
  reserves := by
    intro now fault q x hx later now' fault' hfault
    obtain ⟨sourceType, hok, hres⟩ := reserve_reserves hx
    have hbooks := books_run (h.reserves hres hok.positive) later
    constructor
    · intro hfuture
      obtain ⟨i, b, hb, hasked, hresult⟩ := held_later hres later
      obtain ⟨htxn, hrace⟩ := hbooks.reread hb hasked.tenant hasked.sourceType hasked.sourceId
      rw [hasked.resolved, hresult] at htxn hrace
      refine ⟨b.status, ?_⟩
      obtain heq | heq := reserve_eq ⟨hok.positive, hok.source, hfuture⟩ hfault
        (run step x.2 later)
      · rw [heq, htxn]
        rfl
      · rw [heq, hrace]
        rfl
    · intro hpast
      refine ⟨"BILLING_INVALID_EXPIRY", "过期时间参数无效", ?_⟩
      simp only [reserve, bind_eq_error, raiseIf_eq_ok]
      exact Or.inr ⟨(), not_le.mpr hok.positive, Or.inr ⟨sourceType, hok.source,
        Or.inl (requireFutureUtc_past hpast)⟩⟩
  acceptances := by
    intro now tenantId sourceType sourceId price expiresAt x hx later now'
    obtain ⟨amount, st, hamount, hok, hres⟩ := reserveInTransaction_reserves hx
    have hbooks := books_run (h.reserves hres hok.positive) later
    constructor
    · intro hfuture
      obtain ⟨i, b, hb, hasked, hresult⟩ := held_later hres later
      obtain ⟨htxn, -⟩ := hbooks.reread hb hasked.tenant hasked.sourceType hasked.sourceId
      rw [hasked.resolved, hresult] at htxn
      refine ⟨b.status, ?_⟩
      rw [reserveInTransaction_eq hamount hok.source hfuture, htxn]
      rfl
    · intro hpast
      refine ⟨"BILLING_INVALID_EXPIRY", "过期时间参数无效", ?_⟩
      simp only [reserveInTransaction, bind_eq_error]
      exact Or.inr ⟨amount, hamount, Or.inr ⟨st, hok.source,
        Or.inl (requireFutureUtc_past hpast)⟩⟩
  otherHold := by
    intro i b hb now fault q htenant hid hok hother hfault
    obtain ⟨message, hconflict⟩ :=
      resolveExistingReservation_conflict (q := q.normal b.sourceType) (i := i) hother
    obtain ⟨htxn, hrace⟩ := h.reread (q := q.normal b.sourceType) hb htenant.symm rfl hid.symm
    rw [hconflict] at htxn hrace
    refine refused_of_error ⟨RESERVATION_IDEMPOTENCY_CONFLICT, message, ?_⟩
    simp only [Call.perform, bind_eq_error]
    refine Or.inl ?_
    obtain heq | heq := reserve_eq hok hfault db
    · rw [heq, htxn]
      rfl
    · rw [heq, hrace]
      rfl
  otherAcceptance := by
    intro i b hb now sourceType price amount expiresAt commits hamount hst hfuture hother
    obtain ⟨message, hconflict⟩ := resolveExistingReservation_conflict
      (q := ⟨b.tenantId, b.sourceType, b.sourceId, amount, expiresAt⟩) (i := i) hother
    obtain ⟨htxn, -⟩ := h.reread
      (q := ⟨b.tenantId, b.sourceType, b.sourceId, amount, expiresAt⟩) hb rfl rfl rfl
    rw [hconflict] at htxn
    refine refused_of_error ⟨RESERVATION_IDEMPOTENCY_CONFLICT, message, ?_⟩
    simp only [Call.perform, bind_eq_error]
    refine Or.inl ?_
    rw [reserveInTransaction_eq hamount hst hfuture, htxn]
    rfl
  otherCapture := by
    intro now src q b charge priced hb htenant hinput hamount hsettled hother
    obtain ⟨code, message, hconflict⟩ :=
      h.capture_refused hb htenant hinput hamount hsettled hother now
    refine refused_of_error ⟨code, message, ?_⟩
    simp only [Call.perform, bind_eq_error]
    exact Or.inl hconflict
  noAmount := by
    intro now src q b e hb htenant hinput hamount
    have herror := h.capture_unpriceable hb htenant hinput hamount now
    exact ⟨herror, by simp [step, Call.perform, herror, bind, Except.bind]⟩
  otherRelease := by
    intro now i b hb hst
    have hrelease := h.release_eq hb (by simp [hst]) now
    rw [if_neg (by simp [hst])] at hrelease
    refine refused_of_error ⟨RELEASE_CONFLICT, "该预留当前不可释放", ?_⟩
    simp only [Call.perform, bind_eq_error]
    exact Or.inl hrelease
  exclusive := fun _ _ hb => hc.exclusive hb

/-- Billing calls can be repeated: in every state a run reaches, a repeat
returns what the call returned and moves no money, and a call that
contradicts a settlement is refused. -/
theorem replaySafe_run {initial : Db} (h : Opening initial) (calls : List Call) :
    ReplaySafe (run step initial calls) :=
  replaySafe_of_books (books_run h.books calls) (conserved_run h calls)

theorem replaySafe_run_sample :
    Opening sampleDb ∧ ReplaySafe (run step sampleDb sampleCalls) :=
  ⟨opening_sampleDb, replaySafe_run opening_sampleDb sampleCalls⟩

/-- A hold of a request, released before anything was recorded for it. -/
def releasedCalls : List Call :=
  [ .reserve 10 .none ⟨7, "chat_inference", 0, ⟨300, "CNY", isCurrencyCode_cny⟩, 50⟩,
    .release 11 .none 7 0 ]

/-- A capture that is to be priced from the usage does not get as far as
the conflict. -/
theorem released_unpriced_capture_raises_invariant :
    ¬ ∀ (calls : List Call) (now : Nat) (src : Sources) (q : CaptureRequest)
      (b : BalanceReservation),
      (run step sampleDb calls).reservations.get q.reservationId = some b →
      b.tenantId = q.tenantId → b.status = .released →
      Refused (run step sampleDb calls) (.capture now .none src q) := by
  intro h
  let src : Sources :=
    ⟨fun _ _ => some 0, fun _ _ => none, fun _ => some
      { priceVersionId := 0, priceKey := "chat", version := 1, currency := "CNY"
        unit := "local_metered_usage", pricing := []
        keyNonblank := by decide, versionPos := by decide, unitNonblank := by decide
        code := by decide }⟩
  obtain ⟨⟨code, message, hconflict⟩, -⟩ :=
    h releasedCalls 12 src { tenantId := 7, reservationId := 0 }
      { tenantId := 7, walletAccountId := 0, amountMinor := 300, currency := "CNY"
        status := .released, sourceType := "chat_inference", sourceId := 0
        expiresAt := 50, capturedAmountMinor := none, releasedAt := some 11 }
      (by rfl) rfl rfl
  have hraised : (Call.capture 12 .none src { tenantId := 7, reservationId := 0 }).perform
      (run step sampleDb releasedCalls) = .error .invariant := by rfl
  rw [hraised] at hconflict
  cases hconflict

end Mosaic.Billing
