/-
Accepted requests, and whether a worker can take them.

# Two filters

`_resolve_route` picks the first active deployment of the product, by
priority and age; `claim_queued` joins a queued request with its product,
its deployment and its endpoint. The second filter asks everything the
first one asked, and once more of the endpoint: that it is the trusted
one.

# Ties

The pick is `LIMIT 1` of an order that need not be strict. Which of the
deployments that share the first place comes back is the database's
affair, `rank` here, so a statement about the call is one about every
`rank` (`ranked`), and each of them can be the one that comes back
(`resolveRoute_ahead`).

# Where they agree

What a call accepts can be claimed, in the same catalog and whichever
deployment came back, exactly when each that could have is on the trusted
endpoint (`acceptance_claimable_iff`). Otherwise the request stays queued,
its hold stays reserved and its conversation stays busy.
-/
import Mosaic.Chat.Proofs.Accounts

namespace Mosaic.Chat

open Lib

variable {s s' : Store} {catalog : Catalog.CatalogRows} {tenantId productId : Nat}
  {d : Catalog.ModelDeployment}

-- ================================================================= routes

/-- A deployment of the product that is up, as its endpoint is. -/
def Serves (catalog : Catalog.CatalogRows) (productId : Nat)
    (d : Catalog.ModelDeployment) : Prop :=
  d.productModelId = productId ∧ d.status = .active
    ∧ ∃ e, catalog.endpoints.get d.providerEndpointId = some e ∧ e.status = .active

/-- A first one of them, by priority and by age. -/
def Leads (catalog : Catalog.CatalogRows) (productId i : Nat)
    (d : Catalog.ModelDeployment) : Prop :=
  catalog.deployments.get i = some d ∧ Serves catalog productId d
    ∧ ∀ j d', catalog.deployments.get j = some d' → Serves catalog productId d' →
      d.priority < d'.priority
        ∨ (d.priority = d'.priority ∧ d.createdAt ≤ d'.createdAt)

/-- The endpoint the worker is written for. -/
def Trusted (e : Catalog.ProviderEndpoint) : Prop :=
  e.providerName = "bailian" ∧ e.protocol = .openaiCompatible
    ∧ e.secretRef = "env:DASHSCOPE_API_KEY"

/-- The deployment is on it. -/
def OnTrusted (catalog : Catalog.CatalogRows) (d : Catalog.ModelDeployment) : Prop :=
  ∃ e, catalog.endpoints.get d.providerEndpointId = some e ∧ Trusted e

/-- The catalog, read from a database that settles ties by `rank`. -/
def ranked (catalog : Catalog.CatalogRows) (rank : Nat → Nat) : Catalog.CatalogRows :=
  { catalog with rank }

/-- Deployment `i` before all it ties with. -/
def ahead (i j : Nat) : Nat := if j = i then 0 else 1

/-- What `_resolve_route` returns: the first row of its query. -/
theorem resolveRoute_first {i : Nat}
    (h : resolveRoute catalog tenantId productId = .ok i) :
    (∃ p, catalog.products.get productId = some p ∧ p.status = .active
        ∧ p.modality = .text ∧ p.taskType = .chat)
      ∧ ∃ d, catalog.deployments.get i = some d ∧ Serves catalog productId d
        ∧ ∀ j d', catalog.deployments.get j = some d' → Serves catalog productId d' →
          catalog.routeLe (i, d) (j, d') = true := by
  simp only [resolveRoute, bind_eq_ok, orRaise_eq_ok, pure_eq_ok] at h
  obtain ⟨p, hp, ⟨i', d⟩, hhead, rfl⟩ := h
  obtain ⟨hp, hchecks⟩ := Option.filter_eq_some_iff.mp hp
  simp only [Bool.and_eq_true, beq_iff_eq] at hchecks
  obtain ⟨⟨⟨-, htext⟩, hchat⟩, hactive⟩ := hchecks
  have hserves : ∀ e : Nat × Catalog.ModelDeployment,
      (e.2.productModelId == productId && e.2.status == .active
        && (catalog.endpoints.get e.2.providerEndpointId).any fun p => p.status == .active)
          = true ↔ Serves catalog productId e.2 := by
    intro e
    simp [Serves, Option.any_eq_true, and_assoc]
  refine ⟨⟨p, hp, hactive, htext, hchat⟩, d, ?_⟩
  have hmem := List.mem_of_mem_head? (by rw [hhead]; rfl : (i', d) ∈ _)
  obtain ⟨hget, hrow⟩ := Table.mem_ordered.mp hmem
  refine ⟨hget, (hserves (i', d)).mp hrow, fun j d' hj hd' => ?_⟩
  refine (Table.ordered_head_first ?_ ?_ hhead
    (Table.mem_ordered.mpr ⟨hj, (hserves (j, d')).mpr hd'⟩ : (j, d') ∈ _)).1
  · intro a b
    rw [Catalog.CatalogRows.routeLe_iff, Catalog.CatalogRows.routeLe_iff]
    omega
  · intro a b c
    rw [Catalog.CatalogRows.routeLe_iff, Catalog.CatalogRows.routeLe_iff,
      Catalog.CatalogRows.routeLe_iff]
    omega

theorem resolveRoute_leads {i : Nat}
    (h : resolveRoute catalog tenantId productId = .ok i) :
    ∃ d, Leads catalog productId i d := by
  obtain ⟨-, d, hget, hserves, hfirst⟩ := resolveRoute_first h
  refine ⟨d, hget, hserves, fun j d' hj hd' => ?_⟩
  have hle := Catalog.CatalogRows.routeLe_iff.mp (hfirst j d' hj hd')
  simp only at hle
  omega

/-- Where a deployment comes back, one does however ties are settled. -/
theorem resolveRoute_ranked {i : Nat} {rank : Nat → Nat} (rank' : Nat → Nat)
    (h : resolveRoute (ranked catalog rank) tenantId productId = .ok i) :
    ∃ j, resolveRoute (ranked catalog rank') tenantId productId = .ok j := by
  simp only [resolveRoute, bind_eq_ok, orRaise_eq_ok, pure_eq_ok] at h ⊢
  obtain ⟨p, hp, e, hhead, -⟩ := h
  have hrow := Table.mem_ordered.mp (List.mem_of_mem_head? hhead)
  have hmem : e ∈ (ranked catalog rank').deployments.ordered (ranked catalog rank').routeLe
      (fun e => e.2.productModelId == productId && e.2.status == .active
        && ((ranked catalog rank').endpoints.get e.2.providerEndpointId).any
            fun p => p.status == .active) := Table.mem_ordered.mpr hrow
  exact ⟨_, p, hp, _, List.head?_eq_some_head (List.ne_nil_of_mem hmem), rfl⟩

/-- Whichever of the first ones the database puts ahead comes back. -/
theorem resolveRoute_ahead {i j : Nat} (hleads : Leads catalog productId i d)
    (h : resolveRoute (ranked catalog (ahead i)) tenantId productId = .ok j) : j = i := by
  obtain ⟨hget, hserves, hleads⟩ := hleads
  obtain ⟨-, d', hget', hserves', hfirst⟩ := resolveRoute_first h
  have hle := Catalog.CatalogRows.routeLe_iff.mp (hfirst i d hget hserves)
  have hle' := hleads j d' hget' hserves'
  by_contra hne
  have hj : ahead i j = 1 := if_neg hne
  have hi : ahead i i = 0 := if_pos rfl
  simp only [ranked, hi, hj] at hle
  omega

-- ================================================================ accepted

/-- The two calls that accept a request. -/
inductive AcceptCall
  | submit (content : String)
  | regenerate (messageId : Nat)

def AcceptCall.perform (call : AcceptCall) (now : Nat) (catalog : Catalog.CatalogRows)
    (book : Catalog.PriceBook) (tenantId actorUserId conversationId : Nat)
    (clientRequestId requestHash : String) (s : Store) :
    Except ChatError (AcceptedChatRequest × Store) :=
  match call with
  | .submit content => Chat.submit now catalog book tenantId actorUserId conversationId
      content clientRequestId requestHash s
  | .regenerate messageId => Chat.regenerate now catalog book tenantId actorUserId
      conversationId messageId clientRequestId requestHash s

/-- What an acceptance leaves for the claim to find. -/
structure Queued (catalog : Catalog.CatalogRows) (s s' : Store)
    (tenantId conversationId id : Nat) (c : Conversation) (r : InferenceRequest) :
    Prop where
  request : s'.requests.get id = some r
  status : r.status = .queued
  tenant : r.tenantId = tenantId
  conversation : r.conversationId = conversationId
  before : s.conversations.get conversationId = some c
  route : resolveRoute catalog tenantId c.productModelId = .ok r.modelDeploymentId
  after : ∃ c', s'.conversations.get conversationId = some c' ∧ c'.tenantId = tenantId
    ∧ c'.productModelId = c.productModelId

theorem appendRequestTransaction_queued {t : Store} {now : Nat} {book : Catalog.PriceBook}
    {a : Acceptance} {x : ChatRequestRecord × Store} {c : Conversation}
    (h : appendRequestTransaction now catalog book a t = .ok x)
    (ht : t.conversations = s.conversations)
    (hc : lockConversation s a.tenantId a.actorUserId a.conversationId = some c)
    (hroute : resolveRoute catalog a.tenantId c.productModelId = .ok a.deploymentId)
    (idemId : Nat) :
    ∃ r, Queued catalog s (completeIdempotency x.2 idemId x.1.requestDbId) a.tenantId
      a.conversationId x.1.requestDbId c r := by
  obtain ⟨hcget, hcp⟩ := Option.filter_eq_some_iff.mp hc
  simp only [Bool.and_eq_true, beq_iff_eq] at hcp
  simp only [appendRequestTransaction, bind_eq_ok, orRaise_eq_ok, pure_eq_ok] at h
  obtain ⟨decision, -, -, -, ⟨reservation, billing⟩, -, -, -, c₁, hc₁, rfl⟩ := h
  rw [ht, hcget] at hc₁
  obtain rfl := Option.some.inj hc₁
  refine ⟨acceptedRequest now t.nextUuid (appendMessages now t a).2 decision.priceVersionId
    reservation.reservationId a, Table.get_insert_self _ _, rfl, rfl, rfl, hcget, hroute, ?_⟩
  refine ⟨{ c with activeInferenceRequestId := some t.requests.nextId
                   version := c.version + 1, updatedAt := now }, ?_, hcp.1, rfl⟩
  simp only [completeIdempotency, ht, Table.get_modify_self, hcget, Option.map_some]

theorem AcceptCall.queued {call : AcceptCall} {now : Nat} {book : Catalog.PriceBook}
    {actorUserId conversationId : Nat} {key hash : String} {accepted : AcceptedChatRequest}
    (h : call.perform now catalog book tenantId actorUserId conversationId key hash s
      = .ok (accepted, s')) (hnew : accepted.replayed = false) :
    ∃ c r, Queued catalog s s' tenantId conversationId accepted.request.requestDbId c r := by
  have hreplay : ∀ {t i}, replayRequest t tenantId actorUserId i = .ok accepted → False := by
    intro t i hr
    simp only [replayRequest, bind_eq_ok, pure_eq_ok] at hr
    obtain ⟨_, -, _, -, rfl⟩ := hr
    cases hnew
  cases call with
  | submit content =>
      simp only [AcceptCall.perform, Chat.submit, bind_eq_ok] at h
      obtain ⟨⟨idemId, idem, inserted, s₁⟩, hclaim, h⟩ := h
      obtain ⟨t, ht⟩ := claimIdempotency_ok hclaim
      simp only at ht h
      subst ht
      split at h
      · simp only [bind_eq_ok, pure_eq_ok, Prod.mk.injEq] at h
        obtain ⟨a, ha, rfl, rfl⟩ := h
        exact (hreplay ha).elim
      · simp only [bind_eq_ok, orRaise_eq_ok, pure_eq_ok, Prod.mk.injEq] at h
        obtain ⟨c, hc, -, -, deploymentId, hroute, ⟨request, s₂⟩, happend, rfl, rfl⟩ := h
        exact ⟨c, appendRequestTransaction_queued (s := s) happend rfl hc hroute idemId⟩
  | regenerate messageId =>
      simp only [AcceptCall.perform, Chat.regenerate, bind_eq_ok] at h
      obtain ⟨⟨idemId, idem, inserted, s₁⟩, hclaim, h⟩ := h
      obtain ⟨t, ht⟩ := claimIdempotency_ok hclaim
      simp only at ht h
      subst ht
      split at h
      · simp only [bind_eq_ok, pure_eq_ok, Prod.mk.injEq] at h
        obtain ⟨a, ha, rfl, rfl⟩ := h
        exact (hreplay ha).elim
      · simp only [bind_eq_ok, orRaise_eq_ok, pure_eq_ok, Prod.mk.injEq] at h
        obtain ⟨c, hc, -, -, target, -, latest, -, -, -, deploymentId, hroute,
          ⟨request, s₂⟩, happend, rfl, rfl⟩ := h
        exact ⟨c, appendRequestTransaction_queued (s := s) happend rfl hc hroute idemId⟩

/-- The call is accepted, and not as the repetition of an earlier one. -/
def AcceptCall.Accepts (call : AcceptCall) (now : Nat) (catalog : Catalog.CatalogRows)
    (book : Catalog.PriceBook) (tenantId actorUserId conversationId : Nat)
    (clientRequestId requestHash : String) (s : Store) (accepted : AcceptedChatRequest)
    (s' : Store) : Prop :=
  call.perform now catalog book tenantId actorUserId conversationId clientRequestId
    requestHash s = .ok (accepted, s') ∧ accepted.replayed = false

/-- Of how ties are settled a call sees the deployment that came back, and
nothing else. -/
theorem AcceptCall.Accepts.ranked {call : AcceptCall} {now : Nat} {book : Catalog.PriceBook}
    {actorUserId conversationId : Nat} {key hash : String} {c : Conversation}
    {accepted : AcceptedChatRequest} {rank rank' : Nat → Nat}
    (h : call.Accepts now (ranked catalog rank) book tenantId actorUserId conversationId key
      hash s accepted s')
    (hc : s.conversations.get conversationId = some c)
    (hroute : resolveRoute (Chat.ranked catalog rank) tenantId c.productModelId
      = resolveRoute (Chat.ranked catalog rank') tenantId c.productModelId) :
    call.Accepts now (Chat.ranked catalog rank') book tenantId actorUserId conversationId key
      hash s accepted s' := by
  obtain ⟨h, hnew⟩ := h
  refine ⟨?_, hnew⟩
  have hlock : ∀ {t : Store} {c'}, t.conversations = s.conversations →
      lockConversation t tenantId actorUserId conversationId = some c' → c' = c := by
    intro t c' ht hlock
    have hget := (Option.filter_eq_some_iff.mp hlock).1
    rw [ht, hc] at hget
    exact (Option.some.inj hget).symm
  cases call with
  | submit content =>
      simp only [AcceptCall.perform, Chat.submit, bind_eq_ok] at h ⊢
      obtain ⟨⟨idemId, idem, inserted, s₁⟩, hclaim, h⟩ := h
      obtain ⟨t, ht⟩ := claimIdempotency_ok hclaim
      refine ⟨_, hclaim, ?_⟩
      simp only at ht h ⊢
      split at h
      · next hseen => rw [if_pos hseen, h]
      · next hfresh =>
          rw [if_neg hfresh]
          simp only [bind_eq_ok, orRaise_eq_ok] at h ⊢
          obtain ⟨c', hc', x, hidle, i, hi, happend⟩ := h
          obtain rfl := hlock (by rw [ht]) hc'
          exact ⟨c', hc', x, hidle, i, hroute ▸ hi, happend⟩
  | regenerate messageId =>
      simp only [AcceptCall.perform, Chat.regenerate, bind_eq_ok] at h ⊢
      obtain ⟨⟨idemId, idem, inserted, s₁⟩, hclaim, h⟩ := h
      obtain ⟨t, ht⟩ := claimIdempotency_ok hclaim
      refine ⟨_, hclaim, ?_⟩
      simp only at ht h ⊢
      split at h
      · next hseen => rw [if_pos hseen, h]
      · next hfresh =>
          rw [if_neg hfresh]
          simp only [bind_eq_ok, orRaise_eq_ok] at h ⊢
          obtain ⟨c', hc', x, hidle, target, htarget, latest, hlatest, y, hlast, i, hi,
            happend⟩ := h
          obtain rfl := hlock (by rw [ht]) hc'
          exact ⟨c', hc', x, hidle, target, htarget, latest, hlatest, y, hlast, i,
            hroute ▸ hi, happend⟩

-- =============================================================== claimable

/-- The request meets the selection of `claim_queued`. -/
def Claimable (catalog : Catalog.CatalogRows) (s : Store) (id : Nat) : Prop :=
  ∃ r, s.requests.get id = some r ∧ (claimRow s catalog none none r).isSome = true

/-- Everything the claim asks for is there but, perhaps, the endpoint. -/
theorem Queued.claimable_iff {conversationId id : Nat} {c : Conversation}
    {r : InferenceRequest}
    (h : Queued catalog s s' tenantId conversationId id c r)
    (hd : catalog.deployments.get r.modelDeploymentId = some d) :
    Claimable catalog s' id ↔ OnTrusted catalog d := by
  obtain ⟨⟨p, hp, hactive, htext, hchat⟩, d', hd', ⟨-, hdactive, e, he, heactive⟩, -⟩ :=
    resolveRoute_first h.route
  obtain rfl := Option.some.inj (hd.symm.trans hd')
  obtain ⟨c', hc', htenant, hproduct⟩ := h.after
  have hrow : (claimRow s' catalog none none r).isSome = true ↔ Trusted e := by
    have hlocked : (s'.conversations.get r.conversationId).filter
        (fun c => c.tenantId == r.tenantId) = some c' := by
      rw [h.conversation, hc']
      simp [Option.filter, htenant, h.tenant]
    have htrusted : (trustedRoute catalog c' r).isSome = true ↔ Trusted e := by
      simp only [trustedRoute, hproduct, hp, hd, he, Option.bind_eq_bind, Option.bind_some,
        hactive, htext, hchat, hdactive, heactive, true_and]
      split
      · next h => exact ⟨fun _ => h, fun _ => rfl⟩
      · next h => exact ⟨fun h' => (by cases h'), fun h' => absurd h' h⟩
    rw [← htrusted, claimRow, if_pos ⟨h.status, rfl, rfl⟩, hlocked]
    simp only [Option.bind_eq_bind, Option.bind_some, Option.isSome_bind]
    cases trustedRoute catalog c' r with
    | none => simp
    | some x => simp
  constructor
  · rintro ⟨r', hr', hclaim⟩
    obtain rfl := Option.some.inj (h.request.symm.trans hr')
    exact ⟨e, he, hrow.mp hclaim⟩
  · rintro ⟨e', he', htrusted⟩
    obtain rfl := Option.some.inj (he.symm.trans he')
    exact ⟨r, h.request, hrow.mpr htrusted⟩

/-- **Acceptance and the claim**: what a call accepts can be claimed in the same catalog,
whichever of the first-ranked deployments of the product came back, if and only if each of
them with which the call is accepted is on the trusted endpoint. -/
theorem acceptance_claimable_iff (call : AcceptCall) (now : Nat)
    (catalog : Catalog.CatalogRows) (book : Catalog.PriceBook)
    (tenantId actorUserId conversationId : Nat) (clientRequestId requestHash : String)
    (s : Store) (c : Conversation) (hc : s.conversations.get conversationId = some c) :
    (∀ rank accepted s', call.Accepts now (ranked catalog rank) book tenantId actorUserId
        conversationId clientRequestId requestHash s accepted s' →
        Claimable catalog s' accepted.request.requestDbId)
      ↔ ∀ i d, Leads catalog c.productModelId i d →
          (∃ accepted s', call.Accepts now (ranked catalog (ahead i)) book tenantId actorUserId
            conversationId clientRequestId requestHash s accepted s') →
          OnTrusted catalog d := by
  constructor
  · intro hall i d hleads ⟨accepted, s', haccepts⟩
    obtain ⟨c', r, hqueued⟩ := call.queued haccepts.1 haccepts.2
    obtain rfl := Option.some.inj (hc.symm.trans hqueued.before)
    have hpicked : r.modelDeploymentId = i := resolveRoute_ahead hleads hqueued.route
    have hget : (ranked catalog (ahead i)).deployments.get r.modelDeploymentId = some d := by
      rw [hpicked]
      exact hleads.1
    exact (hqueued.claimable_iff hget).mp (hall _ accepted s' haccepts)
  · intro htrusted rank accepted s' haccepts
    obtain ⟨c', r, hqueued⟩ := call.queued haccepts.1 haccepts.2
    obtain rfl := Option.some.inj (hc.symm.trans hqueued.before)
    obtain ⟨d, hleads⟩ := resolveRoute_leads hqueued.route
    have hleads : Leads catalog c.productModelId r.modelDeploymentId d := hleads
    refine (hqueued.claimable_iff hleads.1).mpr (htrusted _ d hleads ⟨accepted, s', ?_⟩)
    -- with this deployment ahead of its equals the call does the same
    obtain ⟨j, hj⟩ := resolveRoute_ranked (ahead r.modelDeploymentId) hqueued.route
    refine haccepts.ranked hc (hqueued.route.trans ?_)
    rw [hj, resolveRoute_ahead hleads hj]

-- ================================================================ samples

/-- A catalog whose one deployment is on an endpoint of another provider. -/
def foreignCatalog : Catalog.CatalogRows :=
  { sampleCatalog with
    endpoints := ⟨[⟨"openai", .openaiCompatible, "env:OPENAI_API_KEY", .active⟩]⟩ }

/-- A catalog that has, after the deployment of the sample, an equal one on an endpoint of
another provider. -/
def tiedCatalog : Catalog.CatalogRows :=
  { sampleCatalog with
    deployments := sampleCatalog.deployments.insert
      ⟨0, 1, "gpt-4o", .active, 0, 16, [], 0⟩
    endpoints := sampleCatalog.endpoints.insert
      ⟨"openai", .openaiCompatible, "env:OPENAI_API_KEY", .active⟩ }

/-- Either may come back: which one is up to the database. -/
example : resolveRoute (ranked tiedCatalog (ahead 0)) 1 0 = .ok 0
    ∧ resolveRoute (ranked tiedCatalog (ahead 1)) 1 0 = .ok 1 := by decide

/-- A message sent in the sample catalog is there for a worker. -/
theorem acceptance_claimable_iff_sample :
    ∃ accepted s', (AcceptCall.submit "hi").Accepts 0 sampleCatalog sampleBook 1 2 0 "k1"
        "hash" sampleStore accepted s'
      ∧ Claimable sampleCatalog s' accepted.request.requestDbId := by
  refine ⟨_, _, ⟨rfl, rfl⟩, ?_⟩
  refine (acceptance_claimable_iff (.submit "hi") 0 sampleCatalog sampleBook 1 2 0 "k1" "hash"
    sampleStore _ rfl).mpr ?_ sampleCatalog.rank _ _ ⟨rfl, rfl⟩
  rintro i d ⟨hget, -⟩ -
  obtain rfl : i = 0 := by
    have hlt : i < 1 := Table.lt_nextId hget
    omega
  obtain rfl := Option.some.inj hget
  exact ⟨_, rfl, rfl, rfl, rfl⟩

/-- Sent in the other one it holds 500 of the wallet and the conversation, and no worker
will take it. -/
theorem foreign_route_unclaimable :
    ∃ accepted s', (AcceptCall.submit "hi").Accepts 0 foreignCatalog sampleBook 1 2 0 "k1"
        "hash" sampleStore accepted s'
      ∧ (s'.billing.wallets.get 0).map (·.reservedMinor) = some 500
      ∧ (s'.conversations.get 0).map (·.activeInferenceRequestId)
        = some (some accepted.request.requestDbId)
      ∧ ¬ Claimable foreignCatalog s' accepted.request.requestDbId := by
  refine ⟨_, _, ⟨rfl, rfl⟩, rfl, rfl, ?_⟩
  rintro ⟨r, hr, hclaim⟩
  obtain rfl := Option.some.inj hr
  cases hclaim

end Mosaic.Chat
