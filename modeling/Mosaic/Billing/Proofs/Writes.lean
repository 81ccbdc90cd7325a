/-
What a billing call can do to the tables.

`Writes db db'` lists every way one committed call of the service moves
the tables: it leaves the money untouched, opens a hold, settles a
capture or frees a hold. Each constructor carries the facts the code
checked on the way (the row it read, its status, the wallet bounds), so
a result about the service is a case analysis over four constructors
and never unfolds the service again.
-/
import Mosaic.Billing.Service
import Mosaic.Lib.Run

namespace Mosaic.Billing

open Lib

-- ================================================================= calls

/-- One call on the service, with everything the call does not control:
the clock, the database fault and, for the acceptance hold, whether the
caller's transaction commits. `recordUsage` is the completion step of
the two repositories, which share the usage table. -/
inductive Call
  | reserve (now : Nat) (fault : Fault) (q : ReserveRequest)
  | reserveInTransaction (now tenantId : Nat) (sourceType : String)
      (sourceId : Nat) (price : PriceSnapshot) (expiresAt : Nat)
      (callerCommits : Bool)
  | capture (now : Nat) (fault : Fault) (src : Sources) (q : CaptureRequest)
  | release (now : Nat) (fault : Fault) (tenantId reservationId : Nat)
  | recordUsage (u : UsageRecord)

/-- The committed effect of a call, or the error it raises. -/
def Call.perform (db : Db) : Call → Except BillingError Db
  | .reserve now fault q => do
      let (_, db') ← Billing.reserve now fault q db
      return db'
  | .reserveInTransaction now tenantId sourceType sourceId price expiresAt
      callerCommits => do
      let (_, db') ← Billing.reserveInTransaction now tenantId sourceType sourceId
        price expiresAt db
      return if callerCommits then db' else db
  | .capture now fault src q => do
      let (_, db') ← Billing.capture now fault src q db
      return db'
  | .release now fault tenantId reservationId => do
      let (_, db') ← Billing.release now fault tenantId reservationId db
      return db'
  | .recordUsage u => return { db with usageRecords := db.usageRecords.insert u }

/-- One step of the service: a raised error rolls the call back. -/
def step (db : Db) (call : Call) : Db :=
  match call.perform db with
  | .ok db' => db'
  | .error _ => db

-- ================================================================ writes

/-- Everything a committed call can have done to the tables. -/
inductive Writes (db : Db) : Db → Prop
  /-- A replay, or a write of the usage table only. -/
  | usage (us : Table UsageRecord) : Writes db { db with usageRecords := us }
  /-- A fresh hold on a wallet that can afford it. -/
  | hold (walletId : Nat) (w : WalletAccount) (q : ReserveRequest)
      (hw : db.wallets.get walletId = some w)
      (hpos : 0 < q.amount.amountMinor)
      (hfits : w.reservedMinor + q.amount.amountMinor ≤ w.balanceMinor) :
      Writes db (openHold db walletId w q).2
  /-- A fresh capture of a pending hold. -/
  | capture (now tenantId id : Nat) (r : BalanceReservation) (w : WalletAccount)
      (d : CaptureDecision) (us : Table UsageRecord)
      (hr : db.reservations.get id = some r) (hpending : r.status = .pending)
      (hw : db.wallets.get r.walletAccountId = some w)
      (hcharged : 0 ≤ d.chargedMinor) (hle : d.chargedMinor ≤ r.amountMinor)
      (hsplit : d.releasedMinor = r.amountMinor - d.chargedMinor) :
      Writes db { settleCapture now db tenantId id w r d with usageRecords := us }
  /-- A fresh release of a pending hold. -/
  | release (now tenantId id : Nat) (r : BalanceReservation) (w : WalletAccount)
      (d : ReleaseDecision)
      (hr : db.reservations.get id = some r) (hpending : r.status = .pending)
      (hw : db.wallets.get r.walletAccountId = some w)
      (hfull : d.releasedMinor = r.amountMinor) :
      Writes db (settleRelease now db tenantId id w r d)

/-- Nothing at all is a usage write of the same usage table. -/
theorem Writes.refl (db : Db) : Writes db db := Writes.usage db.usageRecords

theorem lockReservation_ok {db : Db} {tenantId id : Nat} {r : BalanceReservation}
    (h : lockReservation db tenantId id = .ok r) :
    db.reservations.get id = some r ∧ r.tenantId = tenantId := by
  rw [lockReservation, orRaise_eq_ok, Option.filter_eq_some_iff] at h
  exact ⟨h.1, by simpa using h.2⟩

theorem lockWalletById_ok {db : Db} {tenantId id : Nat} {w : WalletAccount}
    (h : lockWalletById db tenantId id = .ok w) :
    db.wallets.get id = some w ∧ w.tenantId = tenantId := by
  rw [lockWalletById, orRaise_eq_ok, Option.filter_eq_some_iff] at h
  exact ⟨h.1, by simpa using h.2⟩

/-- A race lost on the unique index reads, and writes nothing. -/
theorem resolveReservationRace_ok {db : Db} {q : ReserveRequest}
    {x : ReservationResult × Db} (h : resolveReservationRace db q = .ok x) :
    x.2 = db := by
  simp only [resolveReservationRace, bind_eq_ok, pure_eq_ok] at h
  obtain ⟨-, -, -, -, -, -, -, -, -, -, rfl⟩ := h
  rfl

/-- The reserve transaction replays or opens a hold it checked. -/
theorem reserveInTxn_writes {db : Db} {q : ReserveRequest}
    {x : ReservationResult × Db} (hpos : 0 < q.amount.amountMinor)
    (h : reserveInTxn db q = .ok x) : Writes db x.2 := by
  unfold reserveInTxn at h
  split at h
  · simp only [bind_eq_ok, pure_eq_ok] at h
    obtain ⟨-, -, -, -, -, -, -, -, rfl⟩ := h
    exact Writes.refl db
  · simp only [bind_eq_ok, raiseIf_eq_ok, pure_eq_ok] at h
    obtain ⟨⟨walletId, w⟩, hw, -, -, -, -, -, hfits, rfl⟩ := h
    rw [lockWalletForCurrency, orRaise_eq_ok] at hw
    simp only at hfits
    exact Writes.hold walletId w q (Table.find_some hw).1 hpos (by omega)

theorem reserve_writes {db : Db} {now : Nat} {fault : Fault} {q : ReserveRequest}
    {x : ReservationResult × Db} (h : reserve now fault q db = .ok x) :
    Writes db x.2 := by
  simp only [reserve, bind_eq_ok, raiseIf_eq_ok] at h
  obtain ⟨-, hpos, sourceType, -, expiresAt, -, h⟩ := h
  cases fault with
  | none => exact reserveInTxn_writes (Nat.pos_of_ne_zero (by simpa using hpos)) h
  | uniqueViolation =>
      rw [resolveReservationRace_ok h]
      exact Writes.refl db
  | database => cases h

/-- A tariff's admission hold is positive. -/
theorem positiveInt_pos {value : Json} {n : Nat} (h : positiveInt value = .ok n) :
    0 < n := by
  simp only [positiveInt, bind_eq_ok, orRaise_eq_ok, raiseIf_eq_ok, pure_eq_ok] at h
  obtain ⟨i, -, -, hpos, rfl⟩ := h
  omega

theorem reservationAmount_pos {price : PriceSnapshot} {m : Money}
    (h : reservationAmount price = .ok m) : 0 < m.amountMinor := by
  simp only [reservationAmount, parseLocalTariff, bind_eq_ok, pure_eq_ok] at h
  obtain ⟨tariff, ⟨-, -, -, -, -, -, -, -, n, hn, -, -, -, -, -, -, -, -, -, -, rfl⟩,
    rfl⟩ := h
  exact positiveInt_pos hn

theorem reserveInTransaction_writes {db : Db} {now tenantId : Nat}
    {sourceType : String} {sourceId : Nat} {price : PriceSnapshot} {expiresAt : Nat}
    {x : ReservationResult × Db}
    (h : reserveInTransaction now tenantId sourceType sourceId price expiresAt db
      = .ok x) : Writes db x.2 := by
  simp only [reserveInTransaction, bind_eq_ok] at h
  obtain ⟨amount, hamount, sourceType, -, expiresAt, -, htxn⟩ := h
  exact reserveInTxn_writes (reservationAmount_pos hamount) htxn

/-- Writing a charge back touches the usage table only. -/
theorem applyPricedUsage_ok {db db' : Db}
    {priced : Option (Nat × UsageRecord × PriceSnapshot)} {charge : Money}
    (h : applyPricedUsage db priced charge = .ok db') :
    ∃ us, db' = { db with usageRecords := us } := by
  cases priced with
  | none =>
      rw [applyPricedUsage, pure_eq_ok] at h
      exact ⟨db.usageRecords, h.symm⟩
  | some p =>
      obtain ⟨usageId, u, price⟩ := p
      simp only [applyPricedUsage, applyUsageCharge, bind_eq_ok, pure_eq_ok] at h
      obtain ⟨-, -, -, -, rfl⟩ := h
      exact ⟨_, rfl⟩

theorem capture_writes {db : Db} {now : Nat} {fault : Fault} {src : Sources}
    {q : CaptureRequest} {x : CaptureResult × Db}
    (h : capture now fault src q db = .ok x) : Writes db x.2 := by
  simp only [capture, bind_eq_ok, mapError_eq_ok] at h
  obtain ⟨-, -, -, -, r, hr, w, hw, -, -, ⟨actual, priced⟩, -, -, -, -, -, d, hd, h⟩
    := h
  split at h
  · simp only [bind_eq_ok, pure_eq_ok] at h
    obtain ⟨db', happly, rfl⟩ := h
    obtain ⟨us, rfl⟩ := applyPricedUsage_ok happly
    exact Writes.usage us
  · next hfresh =>
      simp only [bind_eq_ok, pure_eq_ok] at h
      obtain ⟨-, -, -, -, db', happly, rfl⟩ := h
      obtain ⟨us, rfl⟩ := applyPricedUsage_ok happly
      obtain ⟨hpending, -, hnn, hle, hcharged, hsplit⟩ :=
        decideCapture_fresh hd (by simpa using hfresh)
      exact Writes.capture now q.tenantId q.reservationId r w d us
        (lockReservation_ok hr).1 hpending (lockWalletById_ok hw).1
        (by omega) (by omega) (by omega)

theorem release_writes {db : Db} {now : Nat} {fault : Fault}
    {tenantId reservationId : Nat} {x : ReleaseResult × Db}
    (h : release now fault tenantId reservationId db = .ok x) : Writes db x.2 := by
  simp only [release, bind_eq_ok, mapError_eq_ok] at h
  obtain ⟨-, -, r, hr, w, hw, -, -, d, hd, h⟩ := h
  split at h
  · rw [pure_eq_ok] at h
    subst h
    exact Writes.refl db
  · next hfresh =>
      simp only [bind_eq_ok, pure_eq_ok] at h
      obtain ⟨-, -, rfl⟩ := h
      obtain ⟨hpending, -, hfull⟩ := decideRelease_fresh hd (by simpa using hfresh)
      exact Writes.release now tenantId reservationId r w d (lockReservation_ok hr).1
        hpending (lockWalletById_ok hw).1 hfull

/-- Every committed call is one of the writes. -/
theorem Call.perform_writes {db db' : Db} {call : Call}
    (h : call.perform db = .ok db') : Writes db db' := by
  cases call with
  | reserve now fault q =>
      simp only [Call.perform, bind_eq_ok, pure_eq_ok] at h
      obtain ⟨x, hx, rfl⟩ := h
      exact reserve_writes hx
  | reserveInTransaction now tenantId sourceType sourceId price expiresAt commits =>
      simp only [Call.perform, bind_eq_ok, pure_eq_ok] at h
      obtain ⟨x, hx, rfl⟩ := h
      cases commits with
      | true => exact reserveInTransaction_writes hx
      | false => exact Writes.refl db
  | capture now fault src q =>
      simp only [Call.perform, bind_eq_ok, pure_eq_ok] at h
      obtain ⟨x, hx, rfl⟩ := h
      exact capture_writes hx
  | release now fault tenantId reservationId =>
      simp only [Call.perform, bind_eq_ok, pure_eq_ok] at h
      obtain ⟨x, hx, rfl⟩ := h
      exact release_writes hx
  | recordUsage u =>
      simp only [Call.perform, pure_eq_ok] at h
      subst h
      exact Writes.usage _

/-- A step performs one of the writes, the empty one when it raises. -/
theorem step_writes (db : Db) (call : Call) : Writes db (step db call) := by
  unfold step
  split
  · next db' h => exact Call.perform_writes h
  · exact Writes.refl db

end Mosaic.Billing
