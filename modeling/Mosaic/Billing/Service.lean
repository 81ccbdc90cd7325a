/-
The wallet reservation and append-only ledger service
(app/billing/service.py, queries.py; tables from
app/infrastructure/models.py).

# Transactions

Each public operation is one short database transaction: it reads its
rows under row locks, decides, and either commits every write or raises
and commits none. An operation is therefore a function from the tables
to `Except BillingError (result × tables)`, and a raised error leaves the
tables as they were. What the database itself can do to a transaction,
abort it or refuse an insert on a unique index, is the `Fault` the
caller of `reserve`, `capture` and `release` supplies.

# What the service reads of its surroundings

A capture that is not given an amount prices the accepted usage: it
looks up the price version accepted with the request or job and the
usage record written at completion. The first two are catalog facts and
come in as `Sources`; the usage records are rows of this store, because
a capture writes its charge back to them.
-/
import Mosaic.Billing.Pricing
import Mosaic.Billing.State
import Mosaic.Lib.Table

namespace Mosaic.Billing

open Lib

-- ================================================================ tables

inductive WalletStatus
  | active
  | frozen
  | closed
deriving Repr, DecidableEq

/-- A row of `wallet_accounts`. -/
structure WalletAccount where
  tenantId : Nat
  currency : String
  balanceMinor : Int
  reservedMinor : Int
  version : Nat
  status : WalletStatus
deriving Repr, DecidableEq

/-- A row of `balance_reservations`. -/
structure BalanceReservation where
  tenantId : Nat
  walletAccountId : Nat
  amountMinor : Int
  currency : String
  status : ReservationStatus
  sourceType : String
  sourceId : Nat
  expiresAt : Nat
  capturedAmountMinor : Option Int
  committedAt : Option Nat := none
  releasedAt : Option Nat := none
deriving Repr, DecidableEq

inductive EntryType
  | credit
  | debit
  | hold
  | release
  | adjustment
deriving Repr, DecidableEq

/-- A row of `ledger_entries`. -/
structure LedgerEntry where
  tenantId : Nat
  walletAccountId : Nat
  reservationId : Option Nat
  entryType : EntryType
  amountMinor : Int
  currency : String
  referenceType : String
  referenceId : Nat
  idempotencyKey : Option String
deriving Repr, DecidableEq

/-- Exactly one of the two source columns of a usage record is set. -/
inductive UsageSource
  | inferenceRequest (id : Nat)
  | generationJob (id : Nat)
deriving Repr, DecidableEq

/-- A row of `usage_records`. -/
structure UsageRecord where
  tenantId : Nat
  actorUserId : Option Nat
  source : UsageSource
  modelDeploymentId : Nat
  modality : String
  modelKey : String
  providerRequestId : Option String
  providerTaskId : Option String
  pricingVersion : String
  currency : String
  usage : BillingUsage
  chargeAmountMinor : Nat
deriving Repr, DecidableEq

/-- The tables the billing service writes. -/
structure Db where
  wallets : Table WalletAccount
  reservations : Table BalanceReservation
  ledger : Table LedgerEntry
  usageRecords : Table UsageRecord
deriving Repr, DecidableEq

/-- The accepted-price columns of requests and jobs, and the immutable
price versions they point at. -/
structure Sources where
  inferencePriceVersionId : Nat → Nat → Option Nat
  generationPriceVersionId : Nat → Nat → Option Nat
  priceVersions : Nat → Option PriceSnapshot

/-- What the database does to a transaction besides running it. -/
inductive Fault
  | none
  | uniqueViolation
  | database
deriving Repr, DecidableEq

-- =============================================================== results

structure ReservationResult where
  reservationId : Nat
  tenantId : Nat
  sourceType : String
  sourceId : Nat
  amountMinor : Int
  currency : String
  status : ReservationStatus
  expiresAt : Nat
deriving Repr, DecidableEq

structure CaptureResult where
  reservation : ReservationResult
  chargedMinor : Int
  releasedMinor : Int
  idempotent : Bool
deriving Repr, DecidableEq

structure ReleaseResult where
  reservation : ReservationResult
  releasedMinor : Int
  idempotent : Bool
deriving Repr, DecidableEq

/-- `_reservation_result`. The status check of the source cannot fail:
the column's type admits exactly the four statuses. -/
def reservationResult (id : Nat) (r : BalanceReservation) : ReservationResult :=
  { reservationId := id, tenantId := r.tenantId, sourceType := r.sourceType
    sourceId := r.sourceId, amountMinor := r.amountMinor, currency := r.currency
    status := r.status, expiresAt := r.expiresAt }

-- =============================================================== lookups

/-- `wallet_by_id_for_update`, with `_lock_wallet_by_id`'s error. -/
def lockWalletById (db : Db) (tenantId walletId : Nat) :
    Except BillingError WalletAccount :=
  orRaise ((db.wallets.get walletId).filter fun w => w.tenantId == tenantId)
    .invariant

/-- `_lock_wallet_for_currency`. -/
def lockWalletForCurrency (db : Db) (tenantId : Nat) (currency : String) :
    Except BillingError (Nat × WalletAccount) :=
  orRaise (db.wallets.find fun w => w.tenantId == tenantId && w.currency == currency)
    (.notFound WALLET_NOT_FOUND "钱包不存在")

/-- `_lock_reservation`; `_reservation_wallet_id` raises the same error
on the same rows. -/
def lockReservation (db : Db) (tenantId reservationId : Nat) :
    Except BillingError BalanceReservation :=
  orRaise ((db.reservations.get reservationId).filter
    fun r => r.tenantId == tenantId)
    (.notFound RESERVATION_NOT_FOUND "预留不存在")

/-- `reservation_by_source`. -/
def findReservationBySource (db : Db) (tenantId : Nat) (sourceType : String)
    (sourceId : Nat) : Option (Nat × BalanceReservation) :=
  db.reservations.find fun r =>
    r.tenantId == tenantId && r.sourceType == sourceType && r.sourceId == sourceId

/-- `_assert_wallet_reservation_match`. -/
def assertWalletReservationMatch (walletId : Nat) (w : WalletAccount)
    (r : BalanceReservation) : Except BillingError Unit :=
  raiseIf (walletId ≠ r.walletAccountId ∨ w.tenantId ≠ r.tenantId
    ∨ w.currency ≠ r.currency) .invariant

/-- `_ledger_entry`. -/
def ledgerEntry (tenantId walletId reservationId : Nat) (entryType : EntryType)
    (amountMinor : Int) (currency suffix : String) : LedgerEntry :=
  { tenantId, walletAccountId := walletId, reservationId := some reservationId
    entryType, amountMinor, currency, referenceType := "balance_reservation"
    referenceId := reservationId
    idempotencyKey :=
      some ("reservation:" ++ toString reservationId ++ ":" ++ suffix) }

-- =============================================================== reserve

structure ReserveRequest where
  tenantId : Nat
  sourceType : String
  sourceId : Nat
  amount : Money
  expiresAt : Nat
deriving DecidableEq

/-- `_SOURCE_TYPE`: `^[a-z0-9][a-z0-9:_-]{0,63}$`. -/
def isSourceType (s : String) : Bool :=
  let alnum := fun c : Char => ('a' ≤ c && c ≤ 'z') || ('0' ≤ c && c ≤ '9')
  match s.toList with
  | [] => false
  | c :: rest =>
      alnum c && rest.length ≤ 63
        && rest.all fun c => alnum c || c == ':' || c == '_' || c == '-'

/-- `_normalize_source_type`. -/
def normalizeSourceType (value : String) : Except BillingError String := do
  let normalized := PyStr.lower (PyStr.strip value)
  raiseIf (isSourceType normalized = false)
    (.input "BILLING_INVALID_SOURCE" "业务来源参数无效")
  return normalized

/-- `_require_future_utc`. -/
def requireFutureUtc (now expiresAt : Nat) : Except BillingError Nat := do
  raiseIf (expiresAt ≤ now) (.input "BILLING_INVALID_EXPIRY" "过期时间参数无效")
  return expiresAt

/-- `_resolve_existing_reservation`. -/
def resolveExistingReservation (id : Nat) (r : BalanceReservation)
    (q : ReserveRequest) : Except BillingError ReservationResult := do
  raiseIf (r.currency ≠ q.amount.currency)
    (.conflict RESERVATION_IDEMPOTENCY_CONFLICT "相同业务请求的金额参数不一致")
  raiseIf (r.amountMinor ≠ q.amount.amountMinor)
    (.conflict RESERVATION_IDEMPOTENCY_CONFLICT "相同业务请求的金额参数不一致")
  raiseIf (r.expiresAt ≠ q.expiresAt)
    (.conflict RESERVATION_IDEMPOTENCY_CONFLICT "相同业务请求的过期参数不一致")
  return reservationResult id r

/-- The writes of a fresh hold: the reservation row, the wallet's
reserved counter and the hold entry. -/
def openHold (db : Db) (walletId : Nat) (w : WalletAccount) (q : ReserveRequest) :
    ReservationResult × Db :=
  let id := db.reservations.nextId
  let r : BalanceReservation :=
    { tenantId := q.tenantId, walletAccountId := walletId
      amountMinor := q.amount.amountMinor, currency := q.amount.currency
      status := .pending, sourceType := q.sourceType, sourceId := q.sourceId
      expiresAt := q.expiresAt, capturedAmountMinor := none }
  (reservationResult id r,
    { db with
      wallets := db.wallets.modify walletId fun w =>
        { w with reservedMinor := w.reservedMinor + q.amount.amountMinor
                 version := w.version + 1 }
      reservations := db.reservations.insert r
      ledger := db.ledger.insert
        (ledgerEntry q.tenantId walletId id .hold q.amount.amountMinor w.currency
          "hold") })

/-- `_reserve_in_transaction`. -/
def reserveInTxn (db : Db) (q : ReserveRequest) :
    Except BillingError (ReservationResult × Db) :=
  match findReservationBySource db q.tenantId q.sourceType q.sourceId with
  | some (id, existing) => do
      let wallet ← lockWalletById db q.tenantId existing.walletAccountId
      let reservation ← lockReservation db q.tenantId id
      assertWalletReservationMatch existing.walletAccountId wallet reservation
      let result ← resolveExistingReservation id reservation q
      return (result, db)
  | none => do
      let (walletId, wallet) ← lockWalletForCurrency db q.tenantId q.amount.currency
      -- the re-read under the wallet lock sees what the first read saw:
      -- the transaction is atomic, so no hold appeared in between
      raiseIf (wallet.status ≠ .active)
        (.conflict WALLET_UNAVAILABLE "钱包当前不可用")
      let available := wallet.balanceMinor - wallet.reservedMinor
      raiseIf (available < 0) .invariant
      raiseIf (q.amount.amountMinor > available)
        (.conflict INSUFFICIENT_FUNDS "可用余额不足")
      return openHold db walletId wallet q

/-- `_resolve_reservation_race`: the reservation another transaction
inserted first, read back in a transaction of its own. -/
def resolveReservationRace (db : Db) (q : ReserveRequest) :
    Except BillingError (ReservationResult × Db) := do
  let (id, found) ←
    orRaise (findReservationBySource db q.tenantId q.sourceType q.sourceId) .storage
  let wallet ← lockWalletById db q.tenantId found.walletAccountId
  let reservation ← lockReservation db q.tenantId id
  assertWalletReservationMatch found.walletAccountId wallet reservation
  let result ← resolveExistingReservation id reservation q
  return (result, db)

/-- `reserve`: the worker-facing hold in a transaction of its own. -/
def reserve (now : Nat) (fault : Fault) (q : ReserveRequest) (db : Db) :
    Except BillingError (ReservationResult × Db) := do
  raiseIf (q.amount.amountMinor ≤ 0)
    (.input "BILLING_INVALID_RESERVATION_AMOUNT" "预留金额必须大于零")
  let sourceType ← normalizeSourceType q.sourceType
  let expiresAt ← requireFutureUtc now q.expiresAt
  let q := { q with sourceType, expiresAt }
  match fault with
  | .none => reserveInTxn db q
  | .uniqueViolation => resolveReservationRace db q
  | .database => .error .storage

/-- `reserve_in_transaction`: the acceptance hold, inside the caller's
transaction. -/
def reserveInTransaction (now : Nat) (tenantId : Nat) (sourceType : String)
    (sourceId : Nat) (price : PriceSnapshot) (expiresAt : Nat) (db : Db) :
    Except BillingError (ReservationResult × Db) := do
  let amount ← reservationAmount price
  let sourceType ← normalizeSourceType sourceType
  let expiresAt ← requireFutureUtc now expiresAt
  reserveInTxn db { tenantId, sourceType, sourceId, amount, expiresAt }

-- =============================================================== capture

structure CaptureRequest where
  tenantId : Nat
  reservationId : Nat
  actual : Option Money := none
  usage : Option BillingUsage := none
deriving DecidableEq

/-- `_price_for_reservation`. -/
def priceForReservation (src : Sources) (tenantId : Nat) (r : BalanceReservation) :
    Except BillingError PriceSnapshot := do
  let accepted ←
    if r.sourceType = "chat_inference" then
      orRaise (src.inferencePriceVersionId tenantId r.sourceId) .invariant
    else if r.sourceType = "generation" then
      orRaise (src.generationPriceVersionId tenantId r.sourceId) .invariant
    else .error .invariant
  orRaise (src.priceVersions accepted) .invariant

/-- `_usage_for_reservation`. -/
def usageForReservation (db : Db) (tenantId : Nat) (r : BalanceReservation) :
    Except BillingError (Nat × UsageRecord) :=
  if r.sourceType = "chat_inference" then
    orRaise (db.usageRecords.find fun u =>
      u.tenantId == tenantId && u.source == .inferenceRequest r.sourceId) .invariant
  else if r.sourceType = "generation" then
    orRaise (db.usageRecords.find fun u =>
      u.tenantId == tenantId && u.source == .generationJob r.sourceId) .invariant
  else .error .invariant

/-- `_apply_usage_charge`. -/
def applyUsageCharge (db : Db) (usageId : Nat) (u : UsageRecord)
    (price : PriceSnapshot) (charge : Money) : Except BillingError Db := do
  let label ← pricingVersion price
  raiseIf (u.chargeAmountMinor ≠ 0 ∧ u.chargeAmountMinor ≠ charge.amountMinor)
    .invariant
  return { db with
    usageRecords := db.usageRecords.modify usageId fun u =>
      { u with pricingVersion := label, currency := charge.currency
               chargeAmountMinor := charge.amountMinor } }

/-- The write-back of a capture that was priced from usage, if it was. -/
def applyPricedUsage (db : Db)
    (priced : Option (Nat × UsageRecord × PriceSnapshot)) (charge : Money) :
    Except BillingError Db :=
  match priced with
  | none => return db
  | some (usageId, u, price) => applyUsageCharge db usageId u price charge

/-- The amount a capture settles, and what it was priced from. -/
def captureAmount (src : Sources) (db : Db) (q : CaptureRequest)
    (r : BalanceReservation) :
    Except BillingError (Money × Option (Nat × UsageRecord × PriceSnapshot)) :=
  match q.usage, q.actual with
  | none, some actual => return (actual, none)
  | usage, _ => do
      let price ← priceForReservation src q.tenantId r
      let (usageId, u) ← usageForReservation db q.tenantId r
      let charge ← chargeForUsage price (usage.getD u.usage)
      return (charge, some (usageId, u, price))

/-- `_capture_transition_error`, and the invariant error a `ValueError`
becomes. -/
def captureTransitionError (actual : Money) (r : BalanceReservation) :
    TransitionError → BillingError
  | .valueError _ => .invariant
  | .invalidReservationTransition _ =>
      match r.status with
      | .committed => .conflict CAPTURE_CONFLICT "该预留已按其他金额结算"
      | .released => .conflict CAPTURE_CONFLICT "该预留当前不可结算"
      | .expired => .conflict CAPTURE_CONFLICT "该预留当前不可结算"
      | .pending =>
          if actual.amountMinor > r.amountMinor then
            .conflict CAPTURE_AMOUNT_EXCEEDED "结算金额超过预留上限"
          else .invariant

/-- The ledger rows of a settled capture; a zero entry is omitted. -/
def captureEntries (tenantId walletId reservationId : Nat) (currency : String)
    (d : CaptureDecision) : List LedgerEntry :=
  (if d.chargedMinor > 0 then
    [ledgerEntry tenantId walletId reservationId .debit d.chargedMinor currency
      "debit"] else [])
  ++ (if d.releasedMinor > 0 then
    [ledgerEntry tenantId walletId reservationId .release d.releasedMinor currency
      "release"] else [])

/-- The wallet, reservation and ledger writes of a fresh capture. -/
def settleCapture (now : Nat) (db : Db) (tenantId reservationId : Nat)
    (w : WalletAccount) (r : BalanceReservation) (d : CaptureDecision) : Db :=
  { db with
    wallets := db.wallets.modify r.walletAccountId fun w =>
      { w with reservedMinor := w.reservedMinor - r.amountMinor
               balanceMinor := w.balanceMinor - d.chargedMinor
               version := w.version + 1 }
    reservations := db.reservations.modify reservationId fun r =>
      { r with status := .committed, capturedAmountMinor := some d.chargedMinor
               committedAt := some now }
    ledger := (captureEntries tenantId r.walletAccountId reservationId w.currency
      d).foldl Table.insert db.ledger }

/-- `capture`. -/
def capture (now : Nat) (fault : Fault) (src : Sources) (q : CaptureRequest)
    (db : Db) : Except BillingError (CaptureResult × Db) := do
  raiseIf (q.actual.isSome = true ∧ q.usage.isSome = true)
    (.input "BILLING_CAPTURE_INPUT_CONFLICT" "结算不能同时提供金额和 usage")
  raiseIf (fault ≠ .none) .storage
  let reservation ← lockReservation db q.tenantId q.reservationId
  let wallet ← lockWalletById db q.tenantId reservation.walletAccountId
  assertWalletReservationMatch reservation.walletAccountId wallet reservation
  let (actual, priced) ← captureAmount src db q reservation
  raiseIf (actual.currency ≠ wallet.currency)
    (.conflict CURRENCY_MISMATCH "结算货币不一致")
  raiseIf (reservation.status = .pending
    ∧ reservationIsExpired reservation.expiresAt now = true)
    (.conflict RESERVATION_EXPIRED "该预留已过期")
  let decision ← (decideCapture reservation.status reservation.amountMinor
    actual.amountMinor reservation.capturedAmountMinor).mapError
      (captureTransitionError actual reservation)
  if decision.idempotent = true then do
    let db ← applyPricedUsage db priced actual
    return ({ reservation := reservationResult q.reservationId reservation
              chargedMinor := decision.chargedMinor
              releasedMinor := decision.releasedMinor, idempotent := true }, db)
  else do
    raiseIf (wallet.status ≠ .active)
      (.conflict WALLET_UNAVAILABLE "钱包当前不可用")
    raiseIf (wallet.reservedMinor < reservation.amountMinor
      ∨ wallet.balanceMinor < decision.chargedMinor) .invariant
    let db := settleCapture now db q.tenantId q.reservationId wallet reservation
      decision
    let db ← applyPricedUsage db priced actual
    return ({ reservation := reservationResult q.reservationId
                { reservation with status := .committed }
              chargedMinor := decision.chargedMinor
              releasedMinor := decision.releasedMinor, idempotent := false }, db)

-- =============================================================== release

/-- The error an invalid release becomes. -/
def releaseTransitionError (r : BalanceReservation) : TransitionError → BillingError
  | .valueError _ => .invariant
  | .invalidReservationTransition _ =>
      match r.status with
      | .committed => .conflict RELEASE_CONFLICT "该预留当前不可释放"
      | .expired => .conflict RELEASE_CONFLICT "该预留当前不可释放"
      | _ => .invariant

/-- The wallet, reservation and ledger writes of a fresh release. -/
def settleRelease (now : Nat) (db : Db) (tenantId reservationId : Nat)
    (w : WalletAccount) (r : BalanceReservation) (d : ReleaseDecision) : Db :=
  { db with
    wallets := db.wallets.modify r.walletAccountId fun w =>
      { w with reservedMinor := w.reservedMinor - r.amountMinor
               version := w.version + 1 }
    reservations := db.reservations.modify reservationId fun r =>
      { r with status := .released, releasedAt := some now }
    ledger := db.ledger.insert
      (ledgerEntry tenantId r.walletAccountId reservationId .release
        d.releasedMinor w.currency "release") }

/-- `release`. -/
def release (now : Nat) (fault : Fault) (tenantId reservationId : Nat) (db : Db) :
    Except BillingError (ReleaseResult × Db) := do
  raiseIf (fault ≠ .none) .storage
  let reservation ← lockReservation db tenantId reservationId
  let wallet ← lockWalletById db tenantId reservation.walletAccountId
  assertWalletReservationMatch reservation.walletAccountId wallet reservation
  let decision ← (decideRelease reservation.status
    reservation.amountMinor).mapError (releaseTransitionError reservation)
  if decision.idempotent = true then
    return ({ reservation := reservationResult reservationId reservation
              releasedMinor := decision.releasedMinor, idempotent := true }, db)
  else do
    raiseIf (wallet.reservedMinor < reservation.amountMinor) .invariant
    return ({ reservation := reservationResult reservationId
                { reservation with status := .released }
              releasedMinor := decision.releasedMinor, idempotent := false },
            settleRelease now db tenantId reservationId wallet reservation decision)

end Mosaic.Billing
