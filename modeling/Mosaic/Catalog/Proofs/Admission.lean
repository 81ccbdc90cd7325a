/-
The state a product shows, beside what an acceptance makes of it.

# Two filters

`calculate_availability` and the generation repository's `_resolve_route`
read the same rows. Both want the product active, not unsupported, granted
to the tenant, and a route that is up. They part over voices: the first
asks the product whether it needs a voice, and only then looks for a route
that has one; the second never asks the product, and skips the routes
whose own configuration calls for a voice that is not there.

# Where they agree

`VoicesAgree` is what the rows must satisfy for the two to come to the
same answer, and `availability_iff` that nothing less will do.
-/
import Mosaic.Catalog.Availability

namespace Mosaic.Catalog

open Lib Generation

variable {c : CatalogRows} {tenantId productId : Nat} {product : ProductModel}
  {request : CreateGenerationRequest}

/-- `uq_product_models_model_key`. -/
def CatalogRows.KeysUnique (c : CatalogRows) : Prop :=
  ∀ i j p q, c.products.get i = some p → c.products.get j = some q →
    p.modelKey = q.modelKey → i = j

-- =============================================================== the rows

/-- A deployment of the product that is up, as its endpoint is. -/
def Up (c : CatalogRows) (productId : Nat) (d : ModelDeployment) : Prop :=
  (∃ i, c.deployments.get i = some d) ∧ d.productModelId = productId ∧ d.status = .active
    ∧ ∃ e, c.endpoints.get d.providerEndpointId = some e ∧ e.status = .active

/-- What a deployment makes of the voices of an entitlement. -/
def voice (granted : Entitlement) (d : ModelDeployment) : Option (Option AudioVoiceBinding) :=
  resolveAudioVoiceBinding d.providerModelId d.routingConfig granted.config

/-- The product can be executed at all, and is granted. -/
def Offered (c : CatalogRows) (tenantId productId : Nat) (product : ProductModel)
    (granted : Entitlement) : Prop :=
  product.status = .active
    ∧ (Json.field product.capabilities "execution_policy").str? ≠ some "unsupported"
    ∧ entitlement c tenantId productId = some granted

/-- Of an offered product with a route that is up: if the product needs a voice, a
route without audio is not all there is; if it needs none, some route is without
audio or has its voice. -/
def VoicesAgree (c : CatalogRows) (tenantId productId : Nat) (product : ProductModel) :
    Prop :=
  ∀ granted, Offered c tenantId productId product granted → (∃ d, Up c productId d) →
    if (Json.field product.capabilities "voice_resource_required").truthy then
      (∃ d, Up c productId d ∧ voice granted d = some none) →
        ∃ d binding, Up c productId d ∧ voice granted d = some (some binding)
    else ∃ d, Up c productId d ∧ voice granted d ≠ none

-- ========================================================== availability

/-- The snapshot of a deployment that is up. -/
def upSnapshot (d : ModelDeployment) : DeploymentSnapshot :=
  { status := .active, endpointStatus := .active, providerModelId := d.providerModelId
    routingConfig := d.routingConfig }

/-- The active snapshots of a record are the deployments that are up. -/
theorem any_snapshot_iff (c : CatalogRows) (productId : Nat)
    (p : DeploymentSnapshot → Bool) :
    ((c.deployments.ordered (fun a b => a.2.priority ≤ b.2.priority)
        fun e => e.2.productModelId == productId).filterMap fun e => snapshot c e.2).any
          (fun x => x.active && p x) = true
      ↔ ∃ d, Up c productId d ∧ p (upSnapshot d) = true := by
  rw [List.any_eq_true]
  constructor
  · rintro ⟨x, hx, hp⟩
    obtain ⟨⟨i, d⟩, hmem, hsnap⟩ := List.mem_filterMap.mp hx
    obtain ⟨hget, hproduct⟩ := Table.mem_ordered.mp hmem
    unfold snapshot at hsnap
    simp only [Option.bind_eq_bind, Option.bind_eq_some_iff, Option.pure_def,
      Option.some.injEq] at hsnap
    obtain ⟨e, he, rfl⟩ := hsnap
    simp only [DeploymentSnapshot.active, Bool.and_eq_true, beq_iff_eq] at hp hproduct
    obtain ⟨⟨hstatus, hendpoint⟩, hp⟩ := hp
    rw [hstatus, hendpoint] at hp
    exact ⟨d, ⟨⟨i, hget⟩, hproduct, hstatus, e, he, hendpoint⟩, hp⟩
  · rintro ⟨d, ⟨⟨i, hget⟩, hproduct, hstatus, e, he, hendpoint⟩, hp⟩
    have hmem : (i, d) ∈ c.deployments.ordered (fun a b => a.2.priority ≤ b.2.priority)
        fun e => e.2.productModelId == productId :=
      Table.mem_ordered.mpr ⟨hget, by simpa using hproduct⟩
    have hsnap : snapshot c d = some (upSnapshot d) := by
      simp [snapshot, upSnapshot, he, hstatus, hendpoint]
    exact ⟨upSnapshot d, List.mem_filterMap.mpr ⟨(i, d), hmem, hsnap⟩, by
      simpa [DeploymentSnapshot.active, upSnapshot] using hp⟩

theorem bound_upSnapshot {granted : Entitlement} {d : ModelDeployment} :
    (upSnapshot d).bound granted.config = true
      ↔ ∃ binding, voice granted d = some (some binding) := by
  have hvoice : resolveAudioVoiceBinding (upSnapshot d).providerModelId
      (upSnapshot d).routingConfig granted.config = voice granted d := rfl
  rw [DeploymentSnapshot.bound, hvoice]
  rcases voice granted d with _ | _ | binding
  · simp
  · simp
  · simp

theorem calculateAvailability_iff {record : CatalogRecord} :
    calculateAvailability record true = .available ↔
      record.productStatus = .active
        ∧ (Json.field record.capabilities "execution_policy").str? ≠ some "unsupported"
        ∧ hasVoiceResource record = true ∧ record.deployments.any (·.active) = true := by
  unfold calculateAvailability
  split
  · next h =>
      simp only [reduceCtorEq, false_iff]
      rintro ⟨hstatus, hpolicy, hvoice, -⟩
      rcases h with h | h | h
      · exact h hstatus
      · exact hpolicy h
      · rw [h] at hvoice
        cases hvoice
  · next h =>
      push Not at h
      obtain ⟨hstatus, hpolicy, hvoice⟩ := h
      rw [if_neg (by simp)]
      by_cases hup : record.deployments.any (fun d => d.active) = true
      · rw [if_pos hup]
        simpa [hstatus, hpolicy, hup] using hvoice
      · rw [if_neg hup]
        constructor
        · split
          · simp
          · simp
        · rintro ⟨-, -, -, h⟩
          exact absurd h hup

theorem hasVoiceResource_grouped {granted : Entitlement} :
    hasVoiceResource (groupedRecord c productId product granted) = true ↔
      ((Json.field product.capabilities "voice_resource_required").truthy = true →
        ∃ d binding, Up c productId d ∧ voice granted d = some (some binding)) := by
  show (if (Json.field product.capabilities "voice_resource_required").truthy = true
    then _ else true) = true ↔ _
  by_cases hneeds : (Json.field product.capabilities "voice_resource_required").truthy = true
  · rw [if_pos hneeds]
    refine (any_snapshot_iff c productId fun d => d.bound granted.config).trans ?_
    simp only [hneeds, forall_const, bound_upSnapshot]
    exact ⟨fun ⟨d, hup, b, hb⟩ => ⟨d, b, hup, hb⟩, fun ⟨d, b, hup, hb⟩ => ⟨d, hup, b, hb⟩⟩
  · simp [hneeds]

theorem deployments_grouped {granted : Entitlement} :
    (groupedRecord c productId product granted).deployments.any (·.active) = true
      ↔ ∃ d, Up c productId d := by
  have hany := any_snapshot_iff c productId fun _ => true
  simp only [Bool.and_true, and_true] at hany
  exact hany

/-- When a product shows as available. -/
theorem available_iff (hproduct : c.products.get productId = some product) :
    (catalogRecord c tenantId productId).map (calculateAvailability · true) = some .available
      ↔ ∃ granted, Offered c tenantId productId product granted ∧ (∃ d, Up c productId d)
        ∧ ((Json.field product.capabilities "voice_resource_required").truthy = true →
          ∃ d binding, Up c productId d ∧ voice granted d = some (some binding)) := by
  have hrecord : ∀ record, catalogRecord c tenantId productId = some record ↔
      ∃ granted, product.status = .active ∧ entitlement c tenantId productId = some granted
        ∧ groupedRecord c productId product granted = record := by
    intro record
    unfold catalogRecord
    rw [hproduct]
    simp only [Option.bind_eq_bind, Option.bind_eq_some_iff, Option.filter_eq_some_iff,
      Option.pure_def, Option.some.injEq, beq_iff_eq]
    constructor
    · rintro ⟨_, ⟨rfl, hstatus⟩, granted, hgranted, hr⟩
      exact ⟨granted, hstatus, hgranted, hr⟩
    · rintro ⟨granted, hstatus, hgranted, hr⟩
      exact ⟨product, ⟨rfl, hstatus⟩, granted, hgranted, hr⟩
  rw [Option.map_eq_some_iff]
  constructor
  · rintro ⟨record, hr, havailable⟩
    obtain ⟨granted, hstatus, hgranted, rfl⟩ := (hrecord record).mp hr
    obtain ⟨-, hpolicy, hvoice, hup⟩ := calculateAvailability_iff.mp havailable
    exact ⟨granted, ⟨hstatus, hpolicy, hgranted⟩, deployments_grouped.mp hup,
      hasVoiceResource_grouped.mp hvoice⟩
  · rintro ⟨granted, ⟨hstatus, hpolicy, hgranted⟩, hup, hvoice⟩
    exact ⟨_, (hrecord _).mpr ⟨granted, hstatus, hgranted, rfl⟩,
      calculateAvailability_iff.mpr ⟨hstatus, hpolicy, hasVoiceResource_grouped.mpr hvoice,
        deployments_grouped.mpr hup⟩⟩

-- ================================================================= routes

theorem entitled_iff : entitled c tenantId productId = true
    ↔ ∃ granted, entitlement c tenantId productId = some granted := by
  unfold entitled entitlement
  rw [← Option.isSome_iff_exists, List.find?_isSome, List.any_eq_true]

theorem routeOf_isSome {row : Nat × ModelDeployment} {granted : Entitlement}
    (hproduct : c.products.get row.2.productModelId = some product)
    (hgranted : entitlement c tenantId row.2.productModelId = some granted) :
    (routeOf c tenantId row).isSome = true ↔
      (Json.field product.capabilities "execution_policy").str? ≠ some "unsupported"
        ∧ voice granted row.2 ≠ none := by
  unfold routeOf
  rw [hproduct]
  have hfind : (c.entitlements.find? fun e => e.tenantId == tenantId
      && e.productModelId == row.2.productModelId && e.enabled) = some granted := hgranted
  simp only [Option.bind_eq_bind, Option.bind_some, hfind]
  by_cases hpolicy : (Json.field product.capabilities "execution_policy").str?
      = some "unsupported"
  · simp [hpolicy]
  · rw [if_neg hpolicy]
    show ((voice granted row.2).bind _).isSome = true ↔ _
    cases voice granted row.2 with
    | none => simp
    | some v => simpa using hpolicy

/-- When a request for a product has a route. -/
theorem resolveRoute_iff (hkeys : c.KeysUnique)
    (hproduct : c.products.get productId = some product)
    (hkey : request.productModelId = product.modelKey)
    (hmodality : request.modality.catalog = product.modality) :
    (∃ route, resolveRoute c tenantId request = .ok route) ↔
      ∃ granted, Offered c tenantId productId product granted
        ∧ ∃ d, Up c productId d ∧ voice granted d ≠ none := by
  simp only [resolveRoute, orRaise_eq_ok]
  rw [← Option.isSome_iff_exists, List.findSome?_isSome_iff]
  constructor
  · rintro ⟨⟨i, d⟩, hmem, hroute⟩
    obtain ⟨hget, hrow⟩ := Table.mem_ordered.mp hmem
    simp only [Bool.and_eq_true, beq_iff_eq, Option.any_eq_true] at hrow
    obtain ⟨⟨⟨hstatus, hentitled⟩, p, hp, ⟨hpkey, -⟩, hpstatus⟩, e, he, hendpoint⟩ := hrow
    obtain rfl : d.productModelId = productId :=
      hkeys _ _ p product hp hproduct (hpkey.trans hkey)
    obtain rfl := Option.some.inj (hp.symm.trans hproduct)
    obtain ⟨granted, hgranted⟩ := entitled_iff.mp hentitled
    obtain ⟨hpolicy, hvoice⟩ := (routeOf_isSome hp hgranted).mp hroute
    exact ⟨granted, ⟨hpstatus, hpolicy, hgranted⟩, d,
      ⟨⟨i, hget⟩, rfl, hstatus, e, he, hendpoint⟩, hvoice⟩
  · rintro ⟨granted, ⟨hpstatus, hpolicy, hgranted⟩, d,
      ⟨⟨i, hget⟩, rfl, hstatus, e, he, hendpoint⟩, hvoice⟩
    refine ⟨(i, d), Table.mem_ordered.mpr ⟨hget, ?_⟩,
      (routeOf_isSome hproduct hgranted).mpr ⟨hpolicy, hvoice⟩⟩
    have hentitled := entitled_iff.mpr ⟨granted, hgranted⟩
    simp [hstatus, hentitled, hproduct, hkey, hmodality, hpstatus, he, hendpoint]

-- ============================================================== agreement

/-- **Catalog availability**: a product shows as available exactly when a request for
it has a route, if and only if `VoicesAgree`. -/
theorem availability_iff (c : CatalogRows) (hkeys : c.KeysUnique) (tenantId productId : Nat)
    (product : ProductModel) (hproduct : c.products.get productId = some product)
    (request : CreateGenerationRequest) (hkey : request.productModelId = product.modelKey)
    (hmodality : request.modality.catalog = product.modality) :
    ((catalogRecord c tenantId productId).map (calculateAvailability · true)
          = some .available
        ↔ ∃ route, resolveRoute c tenantId request = .ok route)
      ↔ VoicesAgree c tenantId productId product := by
  rw [available_iff hproduct, resolveRoute_iff hkeys hproduct hkey hmodality]
  constructor
  · intro hiff granted hoffered hup
    by_cases hneeds :
        (Json.field product.capabilities "voice_resource_required").truthy = true
    · rw [if_pos hneeds]
      rintro ⟨d, hd, hsilent⟩
      obtain ⟨granted', hoffered', -, hvoiced⟩ :=
        hiff.mpr ⟨granted, hoffered, d, hd, by simp [hsilent]⟩
      obtain rfl := Option.some.inj (hoffered.2.2.symm.trans hoffered'.2.2)
      exact hvoiced hneeds
    · rw [if_neg hneeds]
      obtain ⟨granted', hoffered', husable⟩ :=
        hiff.mp ⟨granted, hoffered, hup, fun h => absurd h hneeds⟩
      obtain rfl := Option.some.inj (hoffered.2.2.symm.trans hoffered'.2.2)
      exact husable
  · intro hagree
    constructor
    · rintro ⟨granted, hoffered, hup, hvoiced⟩
      refine ⟨granted, hoffered, ?_⟩
      by_cases hneeds :
          (Json.field product.capabilities "voice_resource_required").truthy = true
      · obtain ⟨d, binding, hd, hbinding⟩ := hvoiced hneeds
        exact ⟨d, hd, by simp [hbinding]⟩
      · have husable := hagree granted hoffered hup
        rwa [if_neg hneeds] at husable
    · rintro ⟨granted, hoffered, d, hd, husable⟩
      refine ⟨granted, hoffered, ⟨d, hd⟩, fun hneeds => ?_⟩
      have hvoiced := hagree granted hoffered ⟨d, hd⟩
      rw [if_pos hneeds] at hvoiced
      rcases hvoice : voice granted d with _ | _ | binding
      · exact absurd hvoice husable
      · exact hvoiced ⟨d, hd, hvoice⟩
      · exact ⟨d, binding, hd, hvoice⟩

-- ================================================================ samples

/-- A speech product with one route, whose configuration and whose tenant's are
given. -/
def speechCatalog (routing config : List (String × Json)) : CatalogRows :=
  { products := Table.empty.insert
      { modelKey := "qwen-tts", displayName := "Speech", modality := .audio
        taskType := .tts, status := .active, capabilities := [] }
    entitlements := [{ tenantId := 1, productModelId := 0, enabled := true, config }]
    deployments := Table.empty.insert
      { productModelId := 0, providerEndpointId := 0, providerModelId := "qwen3-tts"
        status := .active, priority := 0, concurrencyLimit := 1
        routingConfig := routing, createdAt := 0 }
    endpoints := Table.empty.insert
      { providerName := "bailian", protocol := .dashscopeHttp
        secretRef := "env:DASHSCOPE_API_KEY", status := .active }
    revisions := Table.empty, policies := Table.empty, bindings := [], prices := [] }

def speechRequest : CreateGenerationRequest :=
  { productModelId := "qwen-tts", modality := .audio, input := { text := some "hello" }
    clientRequestId := "k1" }

theorem speechCatalog_keysUnique (routing config : List (String × Json)) :
    (speechCatalog routing config).KeysUnique := by
  have hzero : ∀ i p, (speechCatalog routing config).products.get i = some p → i = 0 := by
    intro i p h
    have hlt : i < 1 := Table.lt_nextId h
    omega
  intro i j p q hp hq _
  rw [hzero i p hp, hzero j q hq]

/-- A route with its default voice: the product shows as available, and a
request for it has the route. -/
theorem availability_iff_sample :
    (catalogRecord (speechCatalog [("live_modality", .str "audio"),
        ("default_voice", .str "Cherry")] []) 1 0).map (calculateAvailability · true)
          = some .available
      ∧ ∃ route, resolveRoute (speechCatalog [("live_modality", .str "audio"),
          ("default_voice", .str "Cherry")] []) 1 speechRequest = .ok route := by
  have hshown : (catalogRecord (speechCatalog [("live_modality", .str "audio"),
        ("default_voice", .str "Cherry")] []) 1 0).map (calculateAvailability · true)
          = some .available := by rfl
  refine ⟨hshown, ((availability_iff _ (speechCatalog_keysUnique _ _) 1 0 _ rfl
    speechRequest rfl rfl).mpr ?_).mp hshown⟩
  intro granted hoffered hup
  rw [if_neg (by decide)]
  obtain ⟨d, hd⟩ := hup
  refine ⟨d, hd, ?_⟩
  obtain ⟨⟨i, hi⟩, -⟩ := hd
  obtain rfl : i = 0 := by
    have hlt : i < 1 := Table.lt_nextId hi
    omega
  obtain rfl := Option.some.inj hi
  exact fun h => nomatch h

/-- A product that does not say it needs a voice, and whose one route has none: it shows
as available, and every request for it is refused. -/
theorem voiceless_route_shown :
    ¬ ((catalogRecord (speechCatalog [("live_modality", .str "audio")] []) 1 0).map
          (calculateAvailability · true) = some .available
        ↔ ∃ route, resolveRoute (speechCatalog [("live_modality", .str "audio")] []) 1
          speechRequest = .ok route) := by
  have hshown : (catalogRecord (speechCatalog [("live_modality", .str "audio")] []) 1 0).map
      (calculateAvailability · true) = some .available := by rfl
  have hrefused : resolveRoute (speechCatalog [("live_modality", .str "audio")] []) 1
      speechRequest = .error .modelUnavailable := by rfl
  intro hiff
  obtain ⟨route, hroute⟩ := hiff.mp hshown
  rw [hrefused] at hroute
  cases hroute

end Mosaic.Catalog
