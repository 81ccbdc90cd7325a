/-
The busy pointer of a conversation: what it names, how its version
moves, and how it relates to the index that refuses a second active
request.
-/
import Mosaic.Chat.Proofs.Steps

namespace Mosaic.Chat

open Lib

variable {who : Caller} {s s' : Store} {cid : Nat} {c c' : Conversation}
  {book : Catalog.PriceBook}

-- ============================================================= versions

/-- How a step may move a conversation: not at all, or its pointer with
exactly one version. -/
def VersionStep (c c' : Conversation) : Prop :=
  (c'.activeInferenceRequestId = c.activeInferenceRequestId ∧ c'.version = c.version)
    ∨ (c'.activeInferenceRequestId ≠ c.activeInferenceRequestId
        ∧ c'.version = c.version + 1)

/-- How a sweep may move it: not at all, or free it once. -/
def FreedOnce (c c' : Conversation) : Prop :=
  (c'.activeInferenceRequestId = c.activeInferenceRequestId ∧ c'.version = c.version)
    ∨ (c.activeInferenceRequestId ≠ none ∧ c'.activeInferenceRequestId = none
        ∧ c'.version = c.version + 1)

theorem FreedOnce.versionStep (h : FreedOnce c c') : VersionStep c c' := by
  cases h with
  | inl h => exact Or.inl h
  | inr h =>
      refine Or.inr ⟨?_, h.2.2⟩
      rw [h.2.1]
      exact h.1.symm

theorem Effect.versionStep (heff : Effect who s s')
    (hc : s.conversations.get cid = some c) :
    ∃ c', s'.conversations.get cid = some c' ∧ VersionStep c c' := by
  have hsame : VersionStep c c := Or.inl ⟨rfl, rfl⟩
  cases heff with
  | quiet hq => exact ⟨c, hq.conversations ▸ hc, hsame⟩
  | opened x ho =>
      refine ⟨c, ?_, hsame⟩
      rw [ho.conversations]
      exact Table.get_insert_of_some hc _
  | accepted j mid x x' r m e o ha =>
      by_cases hj : cid = j
      · subst hj
        obtain rfl := Option.some.inj (ha.conversations.old.symm.trans hc)
        refine ⟨x', ha.conversations.new, Or.inr ⟨?_, ha.version⟩⟩
        rw [ha.busy, ha.idle]
        simp
      · exact ⟨c, by rw [ha.conversations.other hj, hc], hsame⟩
  | moved id r r' hm hmove => exact ⟨c, hm.conversations ▸ hc, hsame⟩
  | delta id r r' m m' e text hd => exact ⟨c, hd.conversations ▸ hc, hsame⟩
  | ended id r r' x x' m m' e he =>
      by_cases hj : cid = r.conversationId
      · subst hj
        obtain rfl := Option.some.inj (he.conversations.old.symm.trans hc)
        refine ⟨x', he.conversations.new, Or.inr ⟨?_, he.version⟩⟩
        rw [he.freed, he.pointed]
        simp
      · exact ⟨c, by rw [he.conversations.other hj, hc], hsame⟩

theorem Swept.freedOnce (h : Swept s s') (hc : s.conversations.get cid = some c) :
    ∃ c', s'.conversations.get cid = some c' ∧ FreedOnce c c' := by
  obtain ⟨id, r, r', x, x', m, m', e, he⟩ := h
  by_cases hj : cid = r.conversationId
  · subst hj
    obtain rfl := Option.some.inj (he.conversations.old.symm.trans hc)
    exact ⟨x', he.conversations.new,
      Or.inr ⟨by rw [he.pointed]; simp, he.freed, he.version⟩⟩
  · exact ⟨c, by rw [he.conversations.other hj, hc], Or.inl ⟨rfl, rfl⟩⟩

/-- A freed conversation cannot be freed again, so freeing composes. -/
theorem FreedOnce.trans {c₁ c₂ c₃ : Conversation} (h₁ : FreedOnce c₁ c₂)
    (h₂ : FreedOnce c₂ c₃) : FreedOnce c₁ c₃ := by
  obtain ⟨hp₁, hv₁⟩ | ⟨hp₁, hf₁, hv₁⟩ := h₁
  · obtain ⟨hp₂, hv₂⟩ | ⟨hp₂, hf₂, hv₂⟩ := h₂
    · exact Or.inl ⟨hp₂.trans hp₁, hv₂.trans hv₁⟩
    · exact Or.inr ⟨hp₁ ▸ hp₂, hf₂, hv₁ ▸ hv₂⟩
  · obtain ⟨hp₂, hv₂⟩ | ⟨hp₂, -, -⟩ := h₂
    · exact Or.inr ⟨hp₁, hp₂.trans hf₁, hv₂.trans hv₁⟩
    · exact absurd hf₁ hp₂

/-- A whole sweep frees a conversation at most once. -/
theorem sweep_freedOnce (h : Relation.ReflTransGen Swept s s')
    (hc : s.conversations.get cid = some c) :
    ∃ c', s'.conversations.get cid = some c' ∧ FreedOnce c c' := by
  induction h with
  | refl => exact ⟨c, hc, Or.inl ⟨rfl, rfl⟩⟩
  | tail _ hswept ih =>
      obtain ⟨c₁, hc₁, hfreed⟩ := ih
      obtain ⟨c₂, hc₂, hfreed₂⟩ := hswept.freedOnce hc₁
      exact ⟨c₂, hc₂, hfreed.trans hfreed₂⟩

/-- Every step moves the pointer and the version of a conversation
together. -/
theorem step_versionStep (hinv : ChatInv s) (op : Op)
    (hc : s.conversations.get cid = some c) :
    ∃ c', (step book s op).conversations.get cid = some c' ∧ VersionStep c c' := by
  cases step_effects book hinv op with
  | one h => exact h.versionStep hc
  | sweep _ h =>
      obtain ⟨c', hc', hfreed⟩ := sweep_freedOnce h hc
      exact ⟨c', hc', hfreed.versionStep⟩

/-- In every reachable store the pointer of a conversation names an
active request of it, every active request is named, a step that moves
the pointer moves the version by exactly one, and the commands of a
conversation carry strictly increasing versions. -/
theorem pointer_version_run {s : Store} (h : Opening s) (ops : List Op) :
    (∀ cid c id, (run (step book) s ops).conversations.get cid = some c →
        c.activeInferenceRequestId = some id →
        ∃ r, (run (step book) s ops).requests.get id = some r
          ∧ r.conversationId = cid ∧ r.status.active = true)
      ∧ (∀ id r, (run (step book) s ops).requests.get id = some r →
          r.status.active = true →
          ∃ c, (run (step book) s ops).conversations.get r.conversationId = some c
            ∧ c.activeInferenceRequestId = some id)
      ∧ (∀ op cid c, (run (step book) s ops).conversations.get cid = some c →
          ∃ c', (run (step book) s (ops ++ [op])).conversations.get cid = some c'
            ∧ VersionStep c c')
      ∧ ∀ cid, (commandVersions (run (step book) s ops) cid).Pairwise (· < ·) := by
  have hinv : ChatInv (run (step book) s ops) := chatInv_run h ops
  refine ⟨fun cid c id hc hp => ?_, hinv.pointer.complete, fun op cid c hc => ?_,
    hinv.command.increasing⟩
  · obtain ⟨r, hr, hconv, -, hact⟩ := hinv.pointer.sound cid c id hc hp
    exact ⟨r, hr, hconv, hact⟩
  · rw [run_concat]
    exact step_versionStep hinv op hc

theorem pointer_version_run_sample :
    Opening sampleStore
      ∧ (∀ cid, (commandVersions (run (step sampleBook) sampleStore
          [sampleSubmit 5 "hi" "k1", .stop 6 1 2 0 0, sampleSubmit 7 "again" "k2"])
          cid).Pairwise (· < ·))
      ∧ commandVersions (run (step sampleBook) sampleStore
          [sampleSubmit 5 "hi" "k1", .stop 6 1 2 0 0, sampleSubmit 7 "again" "k2"]) 0
        = [1, 3] :=
  ⟨sampleStore_opening, (pointer_version_run sampleStore_opening _).2.2.2,
    by decide +kernel⟩

-- ============================================================ the index

/-- `uq_inference_requests_active_conversation`. -/
def activeIndex : String := "uq_inference_requests_active_conversation"

/-- An idle conversation has no request in a status of the index. -/
def CoversIndex (s : Store) : Prop :=
  ∀ cid c, s.conversations.get cid = some c → c.activeInferenceRequestId = none →
    ∀ id r, s.requests.get id = some r → r.conversationId = cid →
      indexedStatus r.status = false

/-- No submit and no regenerate fails on the index. -/
def AcceptsPastIndex (book : Catalog.PriceBook) (s : Store) : Prop :=
  (∀ now catalog tenantId actorUserId cid content key hash,
      submit now catalog book tenantId actorUserId cid content key hash s
        ≠ .error (.integrity activeIndex))
    ∧ ∀ now catalog tenantId actorUserId cid messageId key hash,
      regenerate now catalog book tenantId actorUserId cid messageId key hash s
        ≠ .error (.integrity activeIndex)

/-- The step leaves a request in `submitted_unknown`: the worker marks
its unexpired running request so, or the sweep selects a running request
whose lease is over. -/
def WritesUnknown (s : Store) : Op → Prop
  | .markSubmittedUnknown _ lockedNow e provider _ =>
      ∃ r, (lockedWritableRequest s lockedNow e (e.lastEventSequence + 1)
          [.running]).filter (fun r => providerIdIsCoherent r provider) = some r
        ∧ (lockedMessage s e).isSome = true ∧ (lockedConversation s e).isSome = true
        ∧ providerRequestTaken s e.requestDbId r (Providers.orElse provider r.providerRequestId)
          = false
  | .reconcileExpiredOnce now limit locked =>
      limit ≤ 500 ∧ ∃ id ∈ expiredRequests s now limit locked,
        ∃ r, s.requests.get id = some r ∧ r.status = .running
  | _ => False

/-- No request is in `submitted_unknown`. -/
def NoUnknown (s : Store) : Prop :=
  ∀ id r, s.requests.get id = some r → r.status ≠ .submittedUnknown

/-- Without unknown requests the pointer covers the index. -/
theorem ChatInv.coversIndex (h : ChatInv s) (hn : NoUnknown s) : CoversIndex s := by
  intro cid c hc hidle id r hr hcid
  rw [Bool.eq_false_iff]
  intro hidx
  have hact : r.status.active = true := by
    have := hn id r hr
    cases hst : r.status <;> simp_all [indexedStatus, RequestStatus.active]
  obtain ⟨c', hc', hp⟩ := h.pointer.complete id r hr hact
  rw [hcid] at hc'
  obtain rfl := Option.some.inj (hc.symm.trans hc')
  simp [hidle] at hp

/-- Acceptance fails on the index only over an indexed request. -/
theorem appendRequestTransaction_integrity {now : Nat}
    {catalog : Catalog.CatalogRows} {a : Acceptance} {i : String}
    (h : appendRequestTransaction now catalog book a s = .error (.integrity i)) :
    violatesActiveIndex s a.tenantId a.conversationId = true := by
  simp only [appendRequestTransaction, bind_eq_error, raiseIf_eq_error,
    orRaise_eq_error, mapError_eq_error, pure_eq_error, reduceCtorEq, and_false,
    exists_false, or_false, false_or] at h
  obtain ⟨-, -, hidx⟩ := h
  exact hidx.1

theorem not_violates_of_coversIndex (hcov : CoversIndex s) (tenantId : Nat)
    (hc : s.conversations.get cid = some c)
    (hidle : c.activeInferenceRequestId = none) :
    violatesActiveIndex s tenantId cid = false := by
  refine List.any_eq_false.mpr fun r hr hviol => ?_
  simp only [Bool.and_eq_true, beq_iff_eq] at hviol
  obtain ⟨id, hget⟩ := Table.get_of_mem_rows hr
  have := hcov cid c hc hidle id r hget hviol.1.2
  simp [this] at hviol

/-- Claiming a key never fails on an index. -/
theorem claimIdempotency_integrity {k : IdempotencyKey} {i : String} :
    claimIdempotency s k ≠ .error (.integrity i) := by
  intro h
  unfold claimIdempotency at h
  split at h
  · simp only [bind_eq_error, raiseIf_eq_error, pure_eq_error, reduceCtorEq,
      and_false, exists_false, or_self] at h
  · simp only [pure_eq_error] at h

theorem replayRequest_integrity {tenantId actorUserId : Nat} {k : IdempotencyRecord}
    {i : String} : replayRequest s tenantId actorUserId k ≠ .error (.integrity i) := by
  intro h
  simp only [replayRequest, bind_eq_error, orRaise_eq_error, pure_eq_error,
    reduceCtorEq, and_false, exists_false, or_self] at h

theorem resolveRoute_integrity {catalog : Catalog.CatalogRows}
    {tenantId productModelId : Nat} {i : String} :
    resolveRoute catalog tenantId productModelId ≠ .error (.integrity i) := by
  intro h
  simp only [resolveRoute, bind_eq_error, orRaise_eq_error, pure_eq_error,
    reduceCtorEq, and_false, exists_false, or_self] at h

theorem acceptsPastIndex_of_coversIndex (hcov : CoversIndex s) :
    AcceptsPastIndex book s := by
  refine ⟨?_, ?_⟩
  · intro now catalog tenantId actorUserId cid content key hash h
    simp only [submit, bind_eq_error, claimIdempotency_integrity, false_or] at h
    obtain ⟨⟨idemId, idem, inserted, s₁⟩, hclaim, h⟩ := h
    obtain ⟨t, ht⟩ := claimIdempotency_ok hclaim
    simp only at ht h
    subst ht
    split at h
    · simp only [bind_eq_error, replayRequest_integrity, pure_eq_error, and_false,
        exists_false, or_self] at h
    · simp only [bind_eq_error, orRaise_eq_error, raiseIf_eq_error, pure_eq_error,
        resolveRoute_integrity, orRaise_eq_ok, raiseIf_eq_ok, not_not, reduceCtorEq,
        and_false, exists_false, or_false, false_or] at h
      obtain ⟨c, hc, -, hidle, deploymentId, -, happend⟩ := h
      have hget := (Option.filter_eq_some_iff.mp hc).1
      have hviol := appendRequestTransaction_integrity happend
      have hclear := not_violates_of_coversIndex hcov tenantId hget hidle
      rw [← Bool.not_eq_true] at hclear
      exact hclear hviol
  · intro now catalog tenantId actorUserId cid messageId key hash h
    simp only [regenerate, bind_eq_error, claimIdempotency_integrity, false_or] at h
    obtain ⟨⟨idemId, idem, inserted, s₁⟩, hclaim, h⟩ := h
    obtain ⟨t, ht⟩ := claimIdempotency_ok hclaim
    simp only at ht h
    subst ht
    split at h
    · simp only [bind_eq_error, replayRequest_integrity, pure_eq_error, and_false,
        exists_false, or_self] at h
    · simp only [bind_eq_error, orRaise_eq_error, raiseIf_eq_error, pure_eq_error,
        resolveRoute_integrity, orRaise_eq_ok, raiseIf_eq_ok, not_not, reduceCtorEq,
        and_false, exists_false, or_false, false_or] at h
      obtain ⟨c, hc, -, hidle, target, -, latest, -, -, -, deploymentId, -, happend⟩ := h
      have hget := (Option.filter_eq_some_iff.mp hc).1
      have hviol := appendRequestTransaction_integrity happend
      have hclear := not_violates_of_coversIndex hcov tenantId hget hidle
      rw [← Bool.not_eq_true] at hclear
      exact hclear hviol

/-- An effect whose caller does not end requests unknown leaves none. -/
theorem NoUnknown.effect (h : NoUnknown s) (heff : Effect who s s')
    (hout : who.outcomes.contains .submittedUnknown = false) : NoUnknown s' := by
  cases heff with
  | quiet hq =>
      unfold NoUnknown
      rw [hq.requests]
      exact h
  | opened c ho =>
      unfold NoUnknown
      rw [ho.requests]
      exact h
  | accepted cid mid c c' y m e o ha =>
      intro i r hr
      rw [ha.requests] at hr
      obtain ⟨-, rfl⟩ | hr := Table.get_insert_cases hr
      · simp [ha.queued]
      · exact h i r hr
  | moved j y y' hm hmove =>
      intro i r hr
      obtain ⟨-, rfl⟩ | ⟨-, hr⟩ := hm.requests.cases hr
      · intro hst
        simpa [hst, RequestStatus.active] using hm.isActive
      · exact h i r hr
  | delta j y y' m m' e text hd =>
      intro i r hr
      obtain ⟨-, rfl⟩ | ⟨-, hr⟩ := hd.requests.cases hr
      · simp [hd.running.2]
      · exact h i r hr
  | ended j y y' c c' m m' e he =>
      intro i r hr
      obtain ⟨-, rfl⟩ | ⟨-, hr⟩ := he.requests.cases hr
      · intro hst
        have := he.outcome
        rw [hst, hout] at this
        simp at this
      · exact h i r hr

/-- The worker's mark changes nothing where its guard fails. -/
theorem markSubmittedUnknown_idle {now lockedNow : Nat} {e : Execution}
    {provider : Option String} {code : String} {x : Bool × Store}
    (hgood : ¬ WritesUnknown s (.markSubmittedUnknown now lockedNow e provider code))
    (h : markSubmittedUnknown now lockedNow e provider code s = .ok x) : x.2 = s := by
  unfold markSubmittedUnknown terminalWithoutUsage at h
  split at h
  · rw [pure_eq_ok] at h
    rw [← h]
  · next r hfilter =>
      split at h
      · next m c hm hc =>
          simp only [bind_eq_ok, raiseIf_eq_ok] at h
          obtain ⟨-, htaken, -⟩ := h
          exact absurd ⟨r, hfilter, by rw [hm]; rfl, by rw [hc]; rfl,
            Bool.eq_false_iff.mpr htaken⟩ hgood
      · rw [pure_eq_ok] at h
        rw [← h]

/-- One row of the sweep rewrites that request only, a running one to
unknown and any other to stopped. -/
theorem reconcileExpiredRow_status {now id j : Nat} {r' : InferenceRequest}
    (h : (reconcileExpiredRow now s id).requests.get j = some r') :
    s.requests.get j = some r' ∨ ∃ r, s.requests.get id = some r ∧ j = id
      ∧ (r.status ≠ .running → r'.status = .stopped) := by
  unfold reconcileExpiredRow at h
  split at h
  · exact Or.inl h
  · next r hr =>
      split at h
      · split at h
        · next hrun =>
            obtain ⟨rfl, -, -, -⟩ | ⟨-, h⟩ := Table.get_modify_cases h
            · exact Or.inr ⟨r, hr, rfl, fun hne => absurd hrun hne⟩
            · exact Or.inl h
        · obtain ⟨rfl, y, -, rfl⟩ | ⟨-, h⟩ := Table.get_modify_cases h
          · exact Or.inr ⟨r, hr, rfl, fun _ => rfl⟩
          · exact Or.inl h
      · exact Or.inl h

/-- A sweep over rows none of which is running leaves none unknown. -/
theorem NoUnknown.sweep (h : NoUnknown s) (now : Nat) (ids : List Nat)
    (hrows : ∀ id ∈ ids, ∀ r, s.requests.get id = some r → r.status ≠ .running) :
    NoUnknown (ids.foldl (reconcileExpiredRow now) s) := by
  induction ids generalizing s with
  | nil => exact h
  | cons id ids ih =>
      rw [List.foldl_cons]
      have hid := hrows id List.mem_cons_self
      refine ih ?_ ?_
      · intro j r' hr'
        obtain hold | ⟨r, hr, -, hst⟩ := reconcileExpiredRow_status hr'
        · exact h j r' hold
        · rw [hst (hid r hr)]
          simp
      · intro j hj r' hr'
        obtain hold | ⟨r, hr, -, hst⟩ := reconcileExpiredRow_status hr'
        · exact hrows j (List.mem_cons_of_mem id hj) r' hold
        · rw [hst (hid r hr)]
          simp

/-- A step that writes no unknown request leaves none. -/
theorem NoUnknown.step (hinv : ChatInv s) (h : NoUnknown s) (op : Op)
    (hgood : ¬ WritesUnknown s op) : NoUnknown (step book s op) := by
  have heff := step_effects book hinv op
  have hother : op.caller.outcomes.contains .submittedUnknown = false →
      NoUnknown (Chat.step book s op) := by
    intro hout
    cases heff with
    | one heff => exact h.effect heff hout
    | sweep hwho hsweep =>
        rw [hwho] at hout
        simp [sweeper] at hout
  cases op with
  | markSubmittedUnknown now lockedNow e provider code =>
      unfold Chat.step
      split
      · next s' hperform =>
          simp only [Op.perform, bind_eq_ok, pure_eq_ok] at hperform
          obtain ⟨x, hx, rfl⟩ := hperform
          rw [markSubmittedUnknown_idle hgood hx]
          exact h
      · exact h
  | reconcileExpiredOnce now limit locked =>
      unfold Chat.step
      split
      · next s' hperform =>
          simp only [Op.perform, reconcileExpiredOnce, bind_eq_ok, raiseIf_eq_ok,
            pure_eq_ok] at hperform
          obtain ⟨-, hlimit, rfl⟩ := hperform
          refine h.sweep now _ fun id hid r hr hrun => hgood ⟨by omega, id, hid, r, hr, hrun⟩
      · exact h
  | create => exact hother rfl
  | submit => exact hother rfl
  | regenerate => exact hother rfl
  | stop => exact hother rfl
  | claimQueued => exact hother rfl
  | requeueClaimed => exact hother rfl
  | checkLeaseAndStop => exact hother rfl
  | appendDelta => exact hother rfl
  | markCompleted => exact hother rfl
  | markStopped => exact hother rfl
  | markFailed => exact hother rfl
  | billing => exact hother rfl

/-- In every run none of whose steps leaves a request in
`submitted_unknown`, every store reached has its pointers cover the
index, and no submit or regenerate fails on it. -/
theorem coversIndex_run {s : Store} (h : Opening s) (ops : List Op)
    (hgood : RunAll (step book) (fun t op => ¬ WritesUnknown t op) s ops) :
    CoversIndex (run (step book) s ops)
      ∧ AcceptsPastIndex book (run (step book) s ops) := by
  have hstep : ∀ t op, ¬ WritesUnknown t op → ChatInv t ∧ NoUnknown t →
      ChatInv (step book t op) ∧ NoUnknown (step book t op) :=
    fun t op hg ht => ⟨ht.1.step op, ht.2.step ht.1 op hg⟩
  have hstart : ChatInv s ∧ NoUnknown s := by
    refine ⟨h.inv, fun id r hr => ?_⟩
    simp [h.get_requests] at hr
  have hend := run_invariant_of hstep hgood hstart
  have hcov := hend.1.coversIndex hend.2
  exact ⟨hcov, acceptsPastIndex_of_coversIndex hcov⟩

/-- Two answers in a row, the first one stopped. -/
theorem coversIndex_run_sample :
    CoversIndex (run (step sampleBook) sampleStore
      [sampleSubmit 5 "hi" "k1", .stop 6 1 2 0 0, sampleSubmit 7 "again" "k2"]) :=
  (coversIndex_run sampleStore_opening _
    (by simp [RunAll, WritesUnknown, sampleSubmit])).1

/-- A worker dies while it streams, the sweep gives the request up as
unknown and frees the conversation: the next submit passes the busy
check and fails on the index. -/
theorem lease_expiry_blocks_conversation :
    let s := run (step sampleBook) sampleStore
      [sampleSubmit 5 "hi" "k1", sampleClaim 6,
       .reconcileExpiredOnce (seconds 100) 50 (fun _ => false)]
    ¬ CoversIndex s ∧ ¬ AcceptsPastIndex sampleBook s := by
  intro s
  have hrow : (s.requests.get 0).map (fun r => (r.status, r.conversationId))
      = some (.submittedUnknown, 0) := by decide +kernel
  have hidle : (s.conversations.get 0).map (·.activeInferenceRequestId) = some none := by
    decide +kernel
  have hfail : submit (seconds 101) sampleCatalog sampleBook 1 2 0 "again" "k2" "hash" s
      = .error (.integrity activeIndex) := by decide +kernel
  refine ⟨fun hcov => ?_, fun hacc => hacc.1 _ _ _ _ _ _ _ _ hfail⟩
  obtain ⟨r, hr, hst⟩ := Option.map_eq_some_iff.mp hrow
  obtain ⟨c, hc, hp⟩ := Option.map_eq_some_iff.mp hidle
  obtain ⟨hstatus, hconv⟩ := Prod.mk.inj hst
  have hclear := hcov 0 c hc hp 0 r hr hconv
  rw [hstatus] at hclear
  simp [indexedStatus] at hclear

end Mosaic.Chat
