/-
The row locks of the billing service (app/billing/service.py and
queries.py): which rows `reserve`, `capture` and `release` lock, in which
order, and what they read in between.

The service modules have each operation as one atomic call. Here the same
operations run as transactions statement by statement, against the
committed tables, with the row locks of their `FOR UPDATE` queries held to
the end. What a transaction writes it writes under its locks, so its
effect is that of the call at the moment it commits.
-/
import Mosaic.Billing.Proofs.Writes
import Mosaic.Lib.Locks

namespace Mosaic.Billing

open Lib

inductive LockRow
  | wallet (id : Nat)
  | reservation (id : Nat)
  | usage (id : Nat)
deriving Repr, DecidableEq

/-- Where a transaction stands: the statement it executes next. -/
inductive TxState
  /-- `_find_reservation_by_source`. -/
  | find (call : Call) (q : ReserveRequest)
  /-- The same, in `_resolve_reservation_race`. -/
  | raceFind (q : ReserveRequest)
  /-- The wallet of a reservation that was found, then the reservation. -/
  | replayWallet (tenantId id walletId : Nat)
  | replayReservation (tenantId id : Nat)
  /-- `_lock_wallet_for_currency`. -/
  | currencyWallet (call : Call) (q : ReserveRequest)
  /-- `_lock_reservation_by_source`. -/
  | sourceReservation (call : Call) (q : ReserveRequest) (walletId : Nat)
  /-- `_lock_wallet_by_id` of the reservation that was locked. -/
  | existingWallet (tenantId id walletId : Nat)
  /-- `_reservation_wallet_id`; `priced` is whether usage is read. -/
  | settleRead (call : Call) (tenantId id : Nat) (priced : Bool)
  | settleWallet (call : Call) (tenantId id walletId : Nat) (priced : Bool)
  | settleReservation (call : Call) (tenantId id : Nat) (priced : Bool)
  /-- `_usage_for_reservation`. -/
  | settleUsage (call : Call) (tenantId id : Nat)
  /-- The decision, the flush and the commit. -/
  | write (call : Call)
  /-- A replay, which has nothing to write. -/
  | replayed
  | ended

/-- The transaction an operation opens; bad input opens none. The second
transaction of a `reserve` that lost the race on the unique index is that
of its fault. -/
def Call.transaction : Call → Option TxState
  | .reserve now fault q =>
      match (do
        raiseIf (q.amount.amountMinor ≤ 0)
          (.input "BILLING_INVALID_RESERVATION_AMOUNT" "预留金额必须大于零")
        let sourceType ← normalizeSourceType q.sourceType
        let expiresAt ← requireFutureUtc now q.expiresAt
        return { q with sourceType, expiresAt } : Except BillingError ReserveRequest) with
      | .error _ => none
      | .ok normalized =>
          match fault with
          | .none => some (.find (.reserve now fault q) normalized)
          | .uniqueViolation => some (.raceFind normalized)
          | .database => none
  | .reserveInTransaction now tenantId sourceType sourceId price expiresAt commits =>
      match (do
        let amount ← reservationAmount price
        let sourceType ← normalizeSourceType sourceType
        let expiresAt ← requireFutureUtc now expiresAt
        return { tenantId, sourceType, sourceId, amount, expiresAt }
          : Except BillingError ReserveRequest) with
      | .error _ => none
      | .ok normalized =>
          some (.find (.reserveInTransaction now tenantId sourceType sourceId price
            expiresAt commits) normalized)
  | .capture now fault src q =>
      if q.actual.isSome = true ∧ q.usage.isSome = true then none
      else some (.settleRead (.capture now fault src q) q.tenantId q.reservationId
        (q.usage.isSome || q.actual.isNone))
  | .release now fault tenantId reservationId =>
      some (.settleRead (.release now fault tenantId reservationId) tenantId
        reservationId false)
  | .recordUsage _ => none

open Locks in
/-- The next statement of a billing transaction. -/
def nextMove (db : Db) : TxState → Move Db TxState LockRow
  | .find call q =>
      match findReservationBySource db q.tenantId q.sourceType q.sourceId with
      | some (id, r) => .go (.replayWallet q.tenantId id r.walletAccountId)
      | none => .go (.currencyWallet call q)
  | .raceFind q =>
      match findReservationBySource db q.tenantId q.sourceType q.sourceId with
      | some (id, r) => .go (.replayWallet q.tenantId id r.walletAccountId)
      | none => .abort
  | .replayWallet tenantId id walletId =>
      match lockWalletById db tenantId walletId with
      | .ok _ => .wait (.wallet walletId) (.replayReservation tenantId id)
      | .error _ => .abort
  | .replayReservation tenantId id =>
      match lockReservation db tenantId id with
      | .ok _ => .wait (.reservation id) .replayed
      | .error _ => .abort
  | .currencyWallet call q =>
      match lockWalletForCurrency db q.tenantId q.amount.currency with
      | .ok (walletId, _) => .wait (.wallet walletId) (.sourceReservation call q walletId)
      | .error _ => .abort
  | .sourceReservation call q _ =>
      match findReservationBySource db q.tenantId q.sourceType q.sourceId with
      | some (id, r) =>
          .wait (.reservation id) (.existingWallet q.tenantId id r.walletAccountId)
      | none => .go (.write call)
  | .existingWallet tenantId _ walletId =>
      match lockWalletById db tenantId walletId with
      | .ok _ => .wait (.wallet walletId) .replayed
      | .error _ => .abort
  | .settleRead call tenantId id priced =>
      match lockReservation db tenantId id with
      | .ok r => .go (.settleWallet call tenantId id r.walletAccountId priced)
      | .error _ => .abort
  | .settleWallet call tenantId id walletId priced =>
      match lockWalletById db tenantId walletId with
      | .ok _ => .wait (.wallet walletId) (.settleReservation call tenantId id priced)
      | .error _ => .abort
  | .settleReservation call tenantId id priced =>
      match lockReservation db tenantId id with
      | .ok _ => .wait (.reservation id)
          (if priced = true then .settleUsage call tenantId id else .write call)
      | .error _ => .abort
  | .settleUsage call tenantId id =>
      match lockReservation db tenantId id with
      | .ok r =>
          match usageForReservation db tenantId r with
          | .ok (usageId, _) => .wait (.usage usageId) (.write call)
          | .error _ => .abort
      | .error _ => .abort
  | .write call => .commit (step db call)
  | .replayed => .commit db
  | .ended => .abort

/-- The billing transactions. -/
def lockProgram : Locks.Program Db TxState LockRow where
  next _ db state := nextMove db state
  ended := .ended

abbrev LockWorld := Locks.World Db TxState LockRow

/-- A call of the service, a statement of an open transaction, or its end
from outside. -/
inductive LockAct
  | open_ (call : Call)
  | step (i : Nat)
  | cut (i : Nat)

def lockStep (w : LockWorld) : LockAct → LockWorld
  | .open_ call =>
      match call.transaction with
      | some start => Locks.step lockProgram w (.begin start)
      | none => w
  | .step i => Locks.step lockProgram w (.step i)
  | .cut i => Locks.step lockProgram w (.cut i)

end Mosaic.Billing
