/-
The public state of a product (app/catalog/service.py), from the record
`list_for_tenant` builds for it (app/catalog/repository.py).

The query joins a product with the tenant's enabled entitlement and, if
there are any, with its deployments and their endpoints; the rows of one
product become one record. `catalogRecord` is the record of one product;
none is there when the tenant may not see the product at all.
-/
import Mosaic.Generation.Repository

namespace Mosaic.Lib.Json

/-- `bool(value)`; a float is spelled as `float.__repr__` spells it. -/
def truthy : Json → Bool
  | .null => false
  | .bool b => b
  | .int n => n != 0
  | .float spelling => spelling != "0.0" && spelling != "-0.0"
  | .str s => s != ""
  | .arr items => !items.isEmpty
  | .obj fields => !fields.isEmpty

end Mosaic.Lib.Json

namespace Mosaic.Catalog

open Lib

-- =============================================================== records

/-- `DeploymentSnapshot`. -/
structure DeploymentSnapshot where
  status : DeploymentStatus
  endpointStatus : EndpointStatus
  providerModelId : String
  routingConfig : List (String × Json)

/-- `CatalogRecord`, as far as the availability depends on it. -/
structure CatalogRecord where
  modelKey : String
  modality : Modality
  productStatus : ProductStatus
  capabilities : List (String × Json)
  entitlementConfig : List (String × Json)
  deployments : List DeploymentSnapshot

/-- The entitlement a tenant has for a product. -/
def entitlement (c : CatalogRows) (tenantId productModelId : Nat) : Option Entitlement :=
  c.entitlements.find? fun e =>
    e.tenantId == tenantId && e.productModelId == productModelId && e.enabled

/-- One joined row; a deployment without its endpoint is left out. -/
def snapshot (c : CatalogRows) (d : ModelDeployment) : Option DeploymentSnapshot := do
  let endpoint ← c.endpoints.get d.providerEndpointId
  return { status := d.status, endpointStatus := endpoint.status
           providerModelId := d.providerModelId, routingConfig := d.routingConfig }

/-- The rows of one product, grouped. -/
def groupedRecord (c : CatalogRows) (productModelId : Nat) (product : ProductModel)
    (granted : Entitlement) : CatalogRecord :=
  let rows := c.deployments.ordered (fun a b => a.2.priority ≤ b.2.priority)
    fun e => e.2.productModelId == productModelId
  { modelKey := product.modelKey, modality := product.modality
    productStatus := product.status, capabilities := product.capabilities
    entitlementConfig := granted.config
    deployments := rows.filterMap fun e => snapshot c e.2 }

/-- The record of a product in `list_for_tenant`. -/
def catalogRecord (c : CatalogRows) (tenantId productModelId : Nat) :
    Option CatalogRecord := do
  let product ← (c.products.get productModelId).filter fun p => p.status == .active
  let granted ← entitlement c tenantId productModelId
  return groupedRecord c productModelId product granted

-- ========================================================== availability

inductive ModelAvailability
  | available
  | maintenance
  | unavailable
deriving Repr, DecidableEq

/-- A route that is up. -/
def DeploymentSnapshot.active (d : DeploymentSnapshot) : Bool :=
  d.status == .active && d.endpointStatus == .active

/-- The binding of a route, if it has one: no exception, and not `None`. -/
def DeploymentSnapshot.bound (d : DeploymentSnapshot)
    (entitlementConfig : List (String × Json)) : Bool :=
  match Generation.resolveAudioVoiceBinding d.providerModelId d.routingConfig
      entitlementConfig with
  | some (some _) => true
  | _ => false

/-- `_has_voice_resource`. -/
def hasVoiceResource (record : CatalogRecord) : Bool :=
  if (Json.field record.capabilities "voice_resource_required").truthy then
    record.deployments.any fun d => d.active && d.bound record.entitlementConfig
  else true

/-- `calculate_availability`. -/
def calculateAvailability (record : CatalogRecord) (executionEnabled : Bool) :
    ModelAvailability :=
  if record.productStatus ≠ .active
      ∨ (Json.field record.capabilities "execution_policy").str? = some "unsupported"
      ∨ hasVoiceResource record = false then .unavailable
  else if executionEnabled = false then .maintenance
  else if record.deployments.any (fun d => d.active) = true then .available
  else if record.deployments.any (fun d =>
      (d.status == .active || d.status == .draining)
        && (d.endpointStatus == .degraded || d.endpointStatus == .active)) = true then
    .maintenance
  else .unavailable

end Mosaic.Catalog
