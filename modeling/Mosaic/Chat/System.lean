/-
The conversation store as a transition system.

An `Op` is one call of either repository with everything the caller and
the environment choose: the clock readings, the catalog of the moment,
the rows another transaction holds locked, and, for the worker-side
calls, an arbitrary execution record. Nothing ties an execution record
to a claim here: what the store guarantees it guarantees against any
caller. An interleaving of any number of API processes, workers and
reconcilers is a list of ops.
-/
import Mosaic.Billing.Proofs.Writes
import Mosaic.Chat.Execution

namespace Mosaic.Chat

open Lib Providers

inductive Op
  | create (now : Nat) (catalog : Catalog.CatalogRows) (tenantId actorUserId : Nat)
      (productModelKey clientRequestId requestHash : String)
  | submit (now : Nat) (catalog : Catalog.CatalogRows)
      (tenantId actorUserId conversationId : Nat)
      (content clientRequestId requestHash : String)
  | regenerate (now : Nat) (catalog : Catalog.CatalogRows)
      (tenantId actorUserId conversationId messageId : Nat)
      (clientRequestId requestHash : String)
  | stop (now tenantId actorUserId conversationId requestId : Nat)
  | claimQueued (now : Nat) (catalog : Catalog.CatalogRows) (locked : Nat → Bool)
      (workerId : String) (leaseSeconds : Nat) (tenantId requestId : Option Nat)
  | requeueClaimed (now : Nat) (e : Execution)
  | checkLeaseAndStop (leaseExtensionSeconds now : Nat) (e : Execution)
  | appendDelta (leaseExtensionSeconds now lockedNow : Nat) (e : Execution)
      (expectedSequence : Int) (delta : String) (providerRequestId : Option String)
  | markCompleted (now lockedNow : Nat) (e : Execution) (expectedSequence : Int)
      (content : String) (providerRequestId : Option String) (usage : TokenUsage)
  | markStopped (now lockedNow : Nat) (e : Execution) (expectedSequence : Int)
      (content : String)
  | markFailed (now lockedNow : Nat) (e : Execution) (expectedSequence : Int)
      (errorCode : String) (errorDetails : Option ErrorDetails)
      (providerRequestId : Option String)
  | markSubmittedUnknown (now lockedNow : Nat) (e : Execution)
      (providerRequestId : Option String) (errorCode : String)
  | reconcileExpiredOnce (now limit : Nat) (locked : Nat → Bool)
  | billing (call : Billing.Call)

/-- The committed effect of an op, or the error it raises. -/
def Op.perform (book : Catalog.PriceBook) (s : Store) : Op → Except ChatError Store
  | .create now catalog tenantId actorUserId key clientRequestId requestHash => do
      let (_, _, s) ← Chat.create now catalog tenantId actorUserId key
        clientRequestId requestHash s
      return s
  | .submit now catalog tenantId actorUserId conversationId content
      clientRequestId requestHash => do
      let (_, s) ← Chat.submit now catalog book tenantId actorUserId conversationId
        content clientRequestId requestHash s
      return s
  | .regenerate now catalog tenantId actorUserId conversationId messageId
      clientRequestId requestHash => do
      let (_, s) ← Chat.regenerate now catalog book tenantId actorUserId
        conversationId messageId clientRequestId requestHash s
      return s
  | .stop now tenantId actorUserId conversationId requestId => do
      let (_, s) ← Chat.stop now tenantId actorUserId conversationId requestId s
      return s
  | .claimQueued now catalog locked workerId leaseSeconds tenantId requestId => do
      let (_, s) ← Chat.claimQueued now catalog locked workerId leaseSeconds
        tenantId requestId s
      return s
  | .requeueClaimed now e => return (Chat.requeueClaimed now e s).2
  | .checkLeaseAndStop ext now e => return (Chat.checkLeaseAndStop ext now e s).2
  | .appendDelta ext now lockedNow e expectedSequence delta providerRequestId => do
      let (_, s) ← Chat.appendDelta ext now lockedNow e expectedSequence delta
        providerRequestId s
      return s
  | .markCompleted now lockedNow e expectedSequence content providerRequestId
      usage => do
      let (_, s) ← Chat.markCompleted book now lockedNow e expectedSequence content
        providerRequestId usage s
      return s
  | .markStopped now lockedNow e expectedSequence content => do
      let (_, s) ← Chat.markStopped now lockedNow e expectedSequence content s
      return s
  | .markFailed now lockedNow e expectedSequence errorCode errorDetails
      providerRequestId => do
      let (_, s) ← Chat.markFailed now lockedNow e expectedSequence errorCode
        errorDetails providerRequestId s
      return s
  | .markSubmittedUnknown now lockedNow e providerRequestId errorCode => do
      let (_, s) ← Chat.markSubmittedUnknown now lockedNow e providerRequestId
        errorCode s
      return s
  | .reconcileExpiredOnce now limit locked =>
      Chat.reconcileExpiredOnce now limit locked s
  | .billing call => return { s with billing := Billing.step s.billing call }

/-- One step of the store: a raised error rolls the transaction back. -/
def step (book : Catalog.PriceBook) (s : Store) (op : Op) : Store :=
  match op.perform book s with
  | .ok s' => s'
  | .error _ => s

/-- A store nobody has accepted a request in yet. -/
structure Opening (s : Store) : Prop where
  idle : ∀ id c, s.conversations.get id = some c → c.activeInferenceRequestId = none
  messages : ∀ id m, s.messages.get id = some m → m.requestId = none
  requests : s.requests = Table.empty
  events : s.events = Table.empty
  outbox : s.outbox = Table.empty

-- =============================================================== sample

/-- A published price: a hold of 500, at least 10, one unit a token. -/
def samplePrice : Billing.PriceSnapshot :=
  { priceVersionId := 0, priceKey := "chat", version := 1, currency := "CNY"
    unit := "local_metered_usage"
    pricing :=
      [("schema", .str "local_tariff_v1"), ("currency", .str "CNY"),
       ("rounding", .str "integer_sum"), ("reservation_minor", .int 500),
       ("minimum_charge_minor", .int 10),
       ("components", .obj [("output_tokens", .int 1)])]
    keyNonblank := by decide, versionPos := Billing.firstVersion_pos
    unitNonblank := Billing.meteredUnit_nonblank, code := Billing.isCurrencyCode_cny }

def sampleBook : Catalog.PriceBook := fun id => if id = 0 then some samplePrice else none

/-- One chat product on one trusted deployment, open to tenant 1. -/
def sampleCatalog : Catalog.CatalogRows :=
  { products := ⟨[⟨"qwen", "Qwen", .text, .chat, .active, []⟩]⟩
    entitlements := [⟨1, 0, true, []⟩]
    deployments := ⟨[⟨0, 0, "qwen-plus", .active, 0, 16, [], 0⟩]⟩
    endpoints := ⟨[⟨"bailian", .openaiCompatible, "env:DASHSCOPE_API_KEY", .active⟩]⟩
    revisions := ⟨[⟨0, 1, 1, "", []⟩]⟩
    policies := ⟨[⟨0, 1, true⟩]⟩
    bindings := [⟨0, 0, 0, 0, none⟩]
    prices := [⟨0, 0, 0, none⟩] }

/-- Tenant 1 with a funded wallet and an idle conversation of user 2. -/
def sampleStore : Store :=
  { conversations := ⟨[⟨1, 2, 0, none, 0, 0⟩]⟩
    messages := Table.empty, requests := Table.empty, events := Table.empty
    idempotency := Table.empty, outbox := Table.empty
    billing :=
      { wallets := ⟨[⟨1, "CNY", 10000, 0, 1, .active⟩]⟩
        reservations := Table.empty, ledger := Table.empty
        usageRecords := Table.empty }
    nextUuid := 0 }

theorem sampleStore_opening : Opening sampleStore := by
  refine ⟨fun id c hc => ?_, fun id m hm => ?_, rfl, rfl, rfl⟩
  · have hmem := Table.mem_rows_of_get hc
    simp only [sampleStore, List.mem_singleton] at hmem
    rw [hmem]
  · simp [sampleStore] at hm

/-- User 2 sends `content` under a key of its own. -/
def sampleSubmit (now : Nat) (content key : String) : Op :=
  .submit now sampleCatalog 1 2 0 content key "hash"

/-- A worker takes the oldest request for a minute. -/
def sampleClaim (now : Nat) : Op :=
  .claimQueued now sampleCatalog (fun _ => false) "worker" 60 none none

end Mosaic.Chat
