/-
The catalog facts an acceptance reads (app/catalog/repository.py and the
route queries of the two repositories): products, entitlements,
deployments, endpoints, and the revision, policy and price the accepted
decision snapshots.

The catalog is maintained elsewhere and may change between any two
operations, so an operation receives the catalog as an argument. The
one part that cannot change is a published price version: the database
refuses to update it. `PriceBook` is that part, a fixed function from
price version ids to snapshots.
-/
import Mosaic.Billing.Pricing
import Mosaic.Lib.Table

namespace Mosaic.Catalog

open Lib Billing

-- ================================================================ tables

inductive Modality
  | text
  | image
  | video
  | audio
  | embedding
  | rerank
  | multimodal
deriving Repr, DecidableEq

inductive TaskType
  | chat
  | textToImage
  | textToVideo
  | imageToVideo
  | tts
deriving Repr, DecidableEq

inductive ProductStatus
  | active
  | hidden
  | deprecated
deriving Repr, DecidableEq

inductive DeploymentStatus
  | active
  | disabled
  | draining
deriving Repr, DecidableEq

inductive EndpointStatus
  | active
  | disabled
  | degraded
deriving Repr, DecidableEq

inductive Protocol
  | openaiCompatible
  | dashscopeHttp
  | dashscopeAsync
deriving Repr, DecidableEq

/-- A row of `product_models`. -/
structure ProductModel where
  modelKey : String
  displayName : String
  modality : Modality
  taskType : TaskType
  status : ProductStatus
  capabilities : List (String × Json)

/-- A row of `tenant_model_entitlements`. -/
structure Entitlement where
  tenantId : Nat
  productModelId : Nat
  enabled : Bool
  config : List (String × Json)

/-- A row of `model_deployments`. -/
structure ModelDeployment where
  productModelId : Nat
  providerEndpointId : Nat
  providerModelId : String
  status : DeploymentStatus
  priority : Nat
  concurrencyLimit : Nat
  routingConfig : List (String × Json)
  createdAt : Nat

/-- A row of `provider_endpoints`. -/
structure ProviderEndpoint where
  providerName : String
  protocol : Protocol
  secretRef : String
  status : EndpointStatus

/-- A row of `model_revisions`. -/
structure ModelRevision where
  productModelId : Nat
  version : Nat
  capabilitySchemaVersion : Nat
  capabilitySchemaHash : String
  capabilitySchema : List (String × Json)

/-- A row of `routing_policies`; `priority` is `strategy = 'priority'`. -/
structure RoutingPolicy where
  modelRevisionId : Nat
  version : Nat
  priority : Bool

/-- A row of `price_bindings`. -/
structure PriceBinding where
  modelRevisionId : Nat
  modelDeploymentId : Nat
  priceVersionId : Nat
  effectiveFrom : Nat
  effectiveTo : Option Nat

/-- The mutable-visibility columns of a `price_versions` row; its
priced facts are in the `PriceBook`. -/
structure PriceVersion where
  id : Nat
  modelRevisionId : Nat
  effectiveFrom : Nat
  effectiveTo : Option Nat

/-- The published price versions: never updated, never deleted. -/
abbrev PriceBook := Nat → Option PriceSnapshot

structure CatalogRows where
  products : Table ProductModel
  entitlements : List Entitlement
  deployments : Table ModelDeployment
  endpoints : Table ProviderEndpoint
  revisions : Table ModelRevision
  policies : Table RoutingPolicy
  bindings : List PriceBinding
  prices : List PriceVersion
  /-- How the database places deployments its query leaves tied. -/
  rank : Nat → Nat := fun _ => 0

-- =============================================================== queries

/-- `ORDER BY priority, created_at` of the route queries. There is no third
key, so what ties on both comes back in an order of the database's own. -/
def CatalogRows.routeLe (c : CatalogRows) (a b : Nat × ModelDeployment) : Bool :=
  a.2.priority < b.2.priority
    || (a.2.priority == b.2.priority && (a.2.createdAt < b.2.createdAt
      || (a.2.createdAt == b.2.createdAt && c.rank a.1 ≤ c.rank b.1)))

theorem CatalogRows.routeLe_iff {c : CatalogRows} {a b : Nat × ModelDeployment} :
    c.routeLe a b = true ↔ a.2.priority < b.2.priority
      ∨ (a.2.priority = b.2.priority ∧ (a.2.createdAt < b.2.createdAt
        ∨ (a.2.createdAt = b.2.createdAt ∧ c.rank a.1 ≤ c.rank b.1))) := by
  simp [CatalogRows.routeLe]

/-- The entitlement join of the route queries. -/
def entitled (c : CatalogRows) (tenantId productModelId : Nat) : Bool :=
  c.entitlements.any fun e =>
    e.tenantId == tenantId && e.productModelId == productModelId && e.enabled

/-- `AcceptedDecisionSnapshot`. -/
structure AcceptedDecision where
  modelRevisionId : Nat
  modelDeploymentId : Nat
  routingPolicyId : Nat
  priceVersionId : Nat
  price : PriceSnapshot
  capabilitySchemaVersion : Nat
  capabilitySchemaHash : String
  capabilitySchema : List (String × Json)

/-- `effective_from <= at AND (effective_to IS NULL OR effective_to > at)`. -/
def effective (effectiveFrom : Nat) (effectiveTo : Option Nat) (now : Nat) : Bool :=
  effectiveFrom ≤ now && effectiveTo.all fun t => now < t

/-- The join of `_accepted_decision_statement`, unordered, as the
decision each joined row would become with its three sort keys. -/
def decisionRows (c : CatalogRows) (book : PriceBook)
    (productModelId deploymentId now : Nat) :
    List ((Nat × Nat × Nat) × AcceptedDecision) := do
  let (revisionId, revision) ← c.revisions.entries
  if revision.productModelId ≠ productModelId then []
  else if (c.deployments.get deploymentId).any
      (fun d => d.productModelId == productModelId) = false then []
  else do
    let (policyId, policy) ← c.policies.entries
    let binding ← c.bindings
    let version ← c.prices
    match book version.id with
    | none => []
    | some price =>
        if policy.modelRevisionId = revisionId ∧ policy.priority = true
            ∧ binding.modelRevisionId = revisionId
            ∧ binding.modelDeploymentId = deploymentId
            ∧ version.id = binding.priceVersionId
            ∧ version.modelRevisionId = revisionId
            ∧ effective binding.effectiveFrom binding.effectiveTo now = true
            ∧ effective version.effectiveFrom version.effectiveTo now = true then
          [((revision.version, policy.version, price.version),
            { modelRevisionId := revisionId, modelDeploymentId := deploymentId
              routingPolicyId := policyId, priceVersionId := version.id, price
              capabilitySchemaVersion := revision.capabilitySchemaVersion
              capabilitySchemaHash := revision.capabilitySchemaHash
              capabilitySchema := revision.capabilitySchema })]
        else []

/-- Lexicographic `<=` on the three version columns. -/
def versionsLe (a b : Nat × Nat × Nat) : Prop :=
  a.1 < b.1 ∨ (a.1 = b.1 ∧ (a.2.1 < b.2.1 ∨ (a.2.1 = b.2.1 ∧ a.2.2 ≤ b.2.2)))

instance (a b : Nat × Nat × Nat) : Decidable (versionsLe a b) :=
  inferInstanceAs (Decidable (_ ∨ _))

/-- `resolve_accepted_decision`: the newest effective decision for a
deployment of the product. -/
def resolveAcceptedDecision (c : CatalogRows) (book : PriceBook)
    (productModelId deploymentId now : Nat) : Option AcceptedDecision :=
  ((decisionRows c book productModelId deploymentId now).insertionSort
    fun a b => versionsLe b.1 a.1).head?.map (·.2)

-- ============================================== what a decision says

theorem decisionRows_book {c : CatalogRows} {book : PriceBook}
    {productModelId deploymentId now : Nat}
    {x : (Nat × Nat × Nat) × AcceptedDecision}
    (h : x ∈ decisionRows c book productModelId deploymentId now) :
    book x.2.priceVersionId = some x.2.price := by
  simp only [decisionRows, List.bind_eq_flatMap, List.mem_flatMap] at h
  obtain ⟨revision, -, h⟩ := h
  split at h
  · cases h
  · split at h
    · cases h
    · simp only [List.mem_flatMap] at h
      obtain ⟨policy, -, binding, -, version, -, h⟩ := h
      split at h
      · cases h
      · next price hprice =>
          split at h
          · obtain rfl := List.mem_singleton.mp h
            exact hprice
          · cases h

/-- A decision names a published price. -/
theorem resolveAcceptedDecision_book {c : CatalogRows} {book : PriceBook}
    {productModelId deploymentId now : Nat} {x : AcceptedDecision}
    (h : resolveAcceptedDecision c book productModelId deploymentId now = some x) :
    book x.priceVersionId = some x.price := by
  rw [resolveAcceptedDecision, Option.map_eq_some_iff] at h
  obtain ⟨y, hy, rfl⟩ := h
  have hmem := List.mem_of_mem_head? (by rw [hy]; rfl : y ∈ _)
  exact decisionRows_book ((List.mem_insertionSort _).mp hmem)

end Mosaic.Catalog
