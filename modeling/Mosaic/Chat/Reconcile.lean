/-
The billing reconciler of chat
(`SqlAlchemyChatBillingAdapter.reconcile_once`,
app/conversations/billing_adapter.py) and the system it is part of.

# A pass

`reconcile_once` selects its rows in one query and settles each of them
in a transaction of its own. Other parties run in between, so a row can
be stale when its turn comes. A `Reconciler` is one pass with the rows it
still has to settle; a capture that finds the hold expired is followed by
a release, and any other exception ends the pass.

# The site

`Site` is the chat world with its passes. Its acts are those of the world
without `settle`, which stands for a reconciler there: here a reservation
is settled by a worker or by a pass that selected it.
-/
import Mosaic.Billing.Proofs.Conservation
import Mosaic.Chat.World

namespace Mosaic.Chat

open Lib Providers

-- =============================================================== calls

/-- A capture in a transaction of its own. -/
def captureHold (book : Catalog.PriceBook) (now tenantId reservationId : Nat)
    (usage : Option Billing.BillingUsage) (s : Store) :
    Except ChatError (Unit × Store) := do
  let (_, billing) ← (Billing.capture now .none (s.sources book)
    { tenantId, reservationId, usage } s.billing).mapError .billing
  return ((), { s with billing })

/-- A release in a transaction of its own. -/
def releaseHold (now tenantId reservationId : Nat) (s : Store) :
    Except ChatError (Unit × Store) := do
  let (_, billing) ← (Billing.release now .none tenantId reservationId
    s.billing).mapError .billing
  return ((), { s with billing })

/-- A `BillingConflict` with the code `RESERVATION_EXPIRED`. -/
def ChatError.isReservationExpired : ChatError → Bool
  | .billing (.conflict code _) => code == Billing.RESERVATION_EXPIRED
  | _ => false

-- =========================================================== selection

/-- The statuses `reconcile_once` selects. -/
def settledStatus : RequestStatus → Bool
  | .succeeded => true
  | .failed => true
  | .stopped => true
  | .cancelled => true
  | _ => false

/-- A row `reconcile_once` selects. -/
structure SettlementRow where
  tenantId : Nat
  reservationId : Nat
  status : RequestStatus
  usageId : Option Nat
deriving Repr, DecidableEq

/-- The join of one reservation with its request and its usage record. -/
def settlementRow (s : Store) (e : Nat × Billing.BalanceReservation) :
    Option SettlementRow :=
  if e.2.sourceType = "chat_inference" ∧ e.2.status = .pending then do
    let r ← (s.requests.get e.2.sourceId).filter fun r =>
      r.tenantId == e.2.tenantId && settledStatus r.status
    return { tenantId := e.2.tenantId, reservationId := e.1, status := r.status
             usageId := (s.billing.usageRecords.find fun u => u.tenantId == r.tenantId
               && u.source == .inferenceRequest e.2.sourceId).map (·.1) }
  else none

/-- The snapshot of `reconcile_once`. The code orders by `created_at`; the
rows here carry no such column and stand in the order they were inserted in,
which is theirs by key. -/
def settlementRows (limit : Nat) (s : Store) : List SettlementRow :=
  (s.billing.reservations.entries.filterMap (settlementRow s)).take limit

-- ============================================================== a pass

inductive ReconcilerPc
  | next
  | releaseExpired (row : SettlementRow)
  | ended
deriving Repr, DecidableEq

/-- One pass of `reconcile_once` over the rows it selected. -/
structure Reconciler where
  rows : List SettlementRow
  clock : Nat
  pc : ReconcilerPc
deriving Repr, DecidableEq

/-- A release of the pass; an exception ends the pass. -/
def Reconciler.release (p : Reconciler) (db : DbOutcome) (row : SettlementRow)
    (s : Store) : Reconciler × Store :=
  match attempt db s (releaseHold p.clock row.tenantId row.reservationId s) with
  | (none, s) => ({ p with pc := .ended }, s)
  | (some _, s) => ({ p with pc := .next }, s)

/-- The capture of a succeeded row. -/
def Reconciler.capture (book : Catalog.PriceBook) (p : Reconciler) (db : DbOutcome)
    (row : SettlementRow) (s : Store) : Reconciler × Store :=
  match captureHold book p.clock row.tenantId row.reservationId none s with
  | .error e =>
      if e.isReservationExpired = true then
        ({ p with pc := .releaseExpired row }, s)
      else ({ p with pc := .ended }, s)
  | .ok x =>
      match attempt db s (.ok x : Except ChatError (Unit × Store)) with
      | (none, s) => ({ p with pc := .ended }, s)
      | (some _, s) => ({ p with pc := .next }, s)

/-- One step of the pass: `elapsed` later, with the fate of its
transaction. -/
def reconcilerStep (book : Catalog.PriceBook) (elapsed : Nat) (db : DbOutcome)
    (p : Reconciler) (s : Store) : Reconciler × Store :=
  let p := { p with clock := p.clock + elapsed }
  match p.pc with
  | .next =>
      match p.rows with
      | [] => ({ p with pc := .ended }, s)
      | row :: rows =>
          let p := { p with rows }
          if row.status = .succeeded then
            if row.usageId = none then (p, s) else p.capture book db row s
          else p.release db row s
  | .releaseExpired row => p.release db row s
  | .ended => (p, s)

-- ================================================================ site

structure Site where
  world : World
  passes : Table Reconciler

/-- The acts of the world that are not a reconciler's. -/
def Act.isParty : Act → Bool
  | .settle .. => false
  | _ => true

inductive SiteAct
  | party (act : Act) (h : act.isParty = true)
  /-- A pass starts: it selects its rows. -/
  | survey (now limit : Nat)
  /-- A pass goes on. -/
  | repair (pass elapsed : Nat) (db : DbOutcome)

def siteStep (cfg : Config) (x : Site) : SiteAct → Site
  | .party act _ => { x with world := worldStep cfg x.world act }
  | .survey now limit =>
      -- a limit outside 1..500 is a `ValueError` before anything is read
      if limit < 1 ∨ limit > 500 then x
      else
        let pass : Reconciler :=
          { rows := settlementRows limit x.world.store, clock := now, pc := .next }
        { x with passes := x.passes.insert pass }
  | .repair pass elapsed db =>
      match x.passes.get pass with
      | none => x
      | some p =>
          let (p', store) := reconcilerStep cfg.book elapsed db p x.world.store
          { world := { x.world with store }
            passes := x.passes.modify pass fun _ => p' }

/-- A site nobody has used: no chat row, no pass, and billing tables in
which nothing is held and nothing metered. -/
structure SiteOpening (x : Site) : Prop where
  world : WorldOpening x.world
  billing : Billing.Opening x.world.store.billing
  usage : x.world.store.billing.usageRecords = Table.empty
  passes : x.passes = Table.empty

end Mosaic.Chat
