/-
The chat system: the store, any number of worker executions over it, and
every way they interleave.

An `Act` is one step of one party. The API and the lease sweep act on
the store directly (`api`); a delivery or a poll claims a request and,
when it gets one, starts a process (`claim`); a process performs its
next call (`work`); the billing reconciler settles one reservation
(`settle`). `reconcile_once` chooses its rows from a snapshot taken
earlier, so `settle` may name any reservation at any time.

`streams` is a ghost: the request of every `provider.stream` ever
started, in order.
-/
import Mosaic.Chat.Worker

namespace Mosaic.Chat

open Lib Providers

structure World where
  store : Store
  processes : Table Process
  streams : List Nat

/-- The calls the API and the lease sweep make. -/
def Op.isApi : Op → Bool
  | .create .. => true
  | .submit .. => true
  | .regenerate .. => true
  | .stop .. => true
  | .reconcileExpiredOnce .. => true
  | _ => false

inductive Act
  | api (op : Op) (h : op.isApi = true)
  | claim (now : Nat) (catalog : Catalog.CatalogRows) (locked : Nat → Bool)
      (workerId : String) (leaseSeconds : Nat) (tenantId requestId : Option Nat)
  | work (pid : Nat) (env : Env)
  | settle (now tenantId reservationId : Nat) (capture : Bool)

/-- The call with which the billing reconciler settles a reservation: a
capture priced from the recorded usage, or a release. -/
def settleCall (book : Catalog.PriceBook) (s : Store)
    (now tenantId reservationId : Nat) (capture : Bool) : Billing.Call :=
  if capture then .capture now .none (s.sources book) { tenantId, reservationId }
  else .release now .none tenantId reservationId

/-- One act. -/
def worldStep (cfg : Config) (w : World) : Act → World
  | .api op _ => { w with store := step cfg.book w.store op }
  | .claim now catalog locked workerId leaseSeconds tenantId requestId =>
      match claimQueued now catalog locked workerId leaseSeconds tenantId requestId
          w.store with
      | .ok (some e, store) =>
          { w with store, processes := w.processes.insert (Process.start now e) }
      | .ok (none, store) => { w with store }
      | .error _ => w
  | .work pid env =>
      match w.processes.get pid with
      | none => w
      | some p =>
          let (p', store) := workerStep cfg env p w.store
          { store, processes := w.processes.modify pid fun _ => p'
            streams :=
              if p.pc = .openStream then w.streams ++ [p.current.requestDbId]
              else w.streams }
  | .settle now tenantId reservationId capture =>
      let call := settleCall cfg.book w.store now tenantId reservationId capture
      { w with store := step cfg.book w.store (.billing call) }

/-- A world nobody has used: no request, no process, and none of the
billing rows is a chat request's. -/
structure WorldOpening (w : World) : Prop where
  store : Opening w.store
  reservations : ∀ id r, w.store.billing.reservations.get id = some r →
    r.sourceType ≠ "chat_inference"
  usage : ∀ id u, w.store.billing.usageRecords.get id = some u →
    ∀ request, u.source ≠ .inferenceRequest request
  processes : w.processes = Table.empty
  streams : w.streams = []

-- =============================================================== sample

/-- Two data lines: a first delta, and the end with its usage. -/
def sampleDecode (line : String) : Option StreamResponse :=
  if line = "one" then
    some { model := "qwen-plus", choices := [⟨some "Hello", none⟩], usage := none }
  else if line = "two" then
    some { model := "", choices := [⟨none, some "stop"⟩]
           usage := some ⟨some 3, some 20, some 23⟩ }
  else none

def sampleConfig : Config :=
  { book := sampleBook, leaseExtensionSeconds := 60, completionOk := fun _ => true
    decode := sampleDecode }

/-- A provider that answers in full. -/
def sampleFeed : Feed :=
  .answered { status := 200, headers := { requestId := some "req-1" } }
    ["data: one", "", "data: two", "data: [DONE]"] false

def sampleWorld : World :=
  { store := sampleStore, processes := Table.empty, streams := [] }

theorem sampleWorld_opening : WorldOpening sampleWorld := by
  refine ⟨sampleStore_opening, ?_, ?_, rfl, rfl⟩
  · intro id r hr
    simp [sampleWorld, sampleStore] at hr
  · intro id u hu
    simp [sampleWorld, sampleStore] at hu

/-- The first process goes on, undisturbed. -/
def sampleWork : Act :=
  .work 0 { elapsed := 1, wait := 0, db := .committed, admission := .granted
            feed := sampleFeed, interrupted := false }

theorem sampleSubmit_isApi : (sampleSubmit 0 "hi" "k1").isApi = true := rfl

/-- A request is accepted, delivered twice and carried to its end. -/
def sampleActs : List Act :=
  [.api (sampleSubmit 0 "hi" "k1") rfl,
   .claim 1 sampleCatalog (fun _ => false) "worker" 60 none none,
   .claim 1 sampleCatalog (fun _ => false) "other" 60 none none]
    ++ List.replicate 14 sampleWork

end Mosaic.Chat
