/-
Jobs that can be shown.

`public_response` puts a stored job and its artifacts into the models of
the API contract. `Presentable` collects what every operation keeps to
that end: an error code that is one, a product key that was checked, an
artifact with a known kind, a type and a size, and a job behind every
idempotency record. Each operation of the repository is one `_shows`
lemma, so the acts keep it (`worldStep_keeps`), and `run_presentable`
collects them over whole runs.
-/
import Mosaic.Generation.Cleanup
import Mosaic.Generation.Proofs.Keeps
import Mosaic.Generation.Proofs.Moves
import Mosaic.Lib.Run

namespace Mosaic.Generation

open Lib

variable {s s' : Store} {j row : GenerationJob} {now : Nat} {cfg : Config} {env : Env}

-- ============================================================ presentable

structure Presentable (s : Store) : Prop where
  jobs : ∀ id j, s.jobs.get id = some j →
    j.errorCode.all isErrorCode = true ∧ isProductModelId j.productModelId = true
  artifacts : ∀ id a, s.artifacts.get id = some a →
    a.kind ∈ artifactKinds ∧ PyStr.blank a.stored.mimeType = false
      ∧ 0 ≤ a.stored.sizeBytes
  keys : ∀ id i, s.idempotency.get id = some i →
    ∃ j, s.jobs.get i.resourceId = some j ∧ j.tenantId = i.tenantId

/-- What a rewriting of a job must keep. -/
def Follows (j row : GenerationJob) : Prop :=
  row.tenantId = j.tenantId ∧ row.productModelId = j.productModelId
    ∧ (j.errorCode.all isErrorCode = true → row.errorCode.all isErrorCode = true)

theorem Presentable.of_eq (h : Presentable s) (hjobs : s'.jobs = s.jobs)
    (hartifacts : s'.artifacts = s.artifacts) (hkeys : s'.idempotency = s.idempotency) :
    Presentable s' := by
  refine ⟨?_, ?_, ?_⟩
  · rw [hjobs]
    exact h.jobs
  · rw [hartifacts]
    exact h.artifacts
  · rw [hjobs, hkeys]
    exact h.keys

theorem Presentable.setJob (h : Presentable s) {id : Nat}
    (hrow : ∀ j, s.jobs.get id = some j → Follows j row) : Presentable (s.setJob id row) := by
  refine ⟨fun i x hx => ?_, h.artifacts, fun i k hk => ?_⟩
  · rcases Table.get_modify_cases hx with ⟨rfl, j, hj, rfl⟩ | ⟨-, hx⟩
    · obtain ⟨-, hproduct, hcode⟩ := hrow j hj
      obtain ⟨hcode', hproduct'⟩ := h.jobs i j hj
      exact ⟨hcode hcode', hproduct ▸ hproduct'⟩
    · exact h.jobs i x hx
  · obtain ⟨j, hj, htenant⟩ := h.keys i k hk
    by_cases he : id = k.resourceId
    · subst he
      refine ⟨row, ?_, (hrow j hj).1.trans htenant⟩
      show (s.jobs.modify _ _).get _ = _
      rw [Table.get_modify_self, hj]
      rfl
    · exact ⟨j, (Table.get_modify_ne _ he _).trans hj, htenant⟩

/-- The row that was read is the row that is written. -/
theorem Presentable.setRead (h : Presentable s) {id : Nat} (hj : s.jobs.get id = some j)
    (hrow : Follows j row) : Presentable (s.setJob id row) :=
  h.setJob fun j' hj' => by
    obtain rfl := Option.some.inj (hj.symm.trans hj')
    exact hrow

/-- The same, of a transaction that writes other tables too. -/
theorem Presentable.written (h : Presentable s) {id : Nat} (hj : s.jobs.get id = some j)
    (hjobs : s'.jobs = (s.setJob id row).jobs) (hrow : Follows j row)
    (hartifacts : s'.artifacts = s.artifacts) (hkeys : s'.idempotency = s.idempotency) :
    Presentable s' :=
  (h.setRead hj hrow).of_eq hjobs hartifacts hkeys

-- ============================================================= operations

/-- A transaction from `s` leaves jobs that can be shown. -/
def Shows {α : Type} (s : Store) (x : Except GenerationError (α × Store)) : Prop :=
  Presentable s → ∀ a s', x = .ok (a, s') → Presentable s'

theorem transition_shows {f : Fence} {expected target : GenerationStatus}
    {v : TransitionValues} : Shows s (transition now f expected target v s) := by
  intro h r s' hok
  simp only [transition, bind_eq_ok, orRaise_eq_ok, Fence.row_eq_some, raiseIf_eq_ok,
    pure_eq_ok, Prod.mk.injEq] at hok
  obtain ⟨-, -, -, -, -, hcode, -, -, j, ⟨hj, -⟩, -, -, -, -, -, rfl⟩ := hok
  refine h.setRead hj ⟨rfl, rfl, fun hold => ?_⟩
  have hv : v.errorCode.all isErrorCode = true := by simpa using hcode
  show (v.errorCode <|> j.errorCode).all isErrorCode = true
  cases hcode : v.errorCode with
  | none => exact hold
  | some code =>
      rw [hcode] at hv
      exact hv

theorem ensureLive_shows {f : Fence} {workerId : String} {leaseSeconds : Nat} :
    Shows s (ensureLive now f workerId leaseSeconds s) := by
  intro h u s' hok
  simp only [ensureLive, bind_eq_ok, orRaise_eq_ok, Fence.row_eq_some, pure_eq_ok,
    Prod.mk.injEq] at hok
  obtain ⟨-, -, j, ⟨hj, -⟩, -, rfl⟩ := hok
  exact h.setRead hj ⟨rfl, rfl, fun h => h⟩

theorem recordProviderTask_shows {f : Fence} {taskId : String} :
    Shows s (recordProviderTask now f taskId s) := by
  intro h u s' hok
  simp only [recordProviderTask, bind_eq_ok, orRaise_eq_ok, Fence.row_eq_some, pure_eq_ok,
    Prod.mk.injEq] at hok
  obtain ⟨-, -, -, -, j, ⟨hj, -⟩, -, -, -, rfl⟩ := hok
  exact h.setRead hj ⟨rfl, rfl, fun h => h⟩

theorem recordProviderRequest_shows {f : Fence} {requestId : String} :
    Shows s (recordProviderRequest now f requestId s) := by
  intro h u s' hok
  simp only [recordProviderRequest, bind_eq_ok, orRaise_eq_ok, Fence.row_eq_some,
    pure_eq_ok, Prod.mk.injEq] at hok
  obtain ⟨-, -, -, -, j, ⟨hj, -⟩, -, -, -, rfl⟩ := hok
  exact h.setRead hj ⟨rfl, rfl, fun h => h⟩

theorem releaseReconciliationClaim_shows {f : Fence} :
    Shows s (releaseReconciliationClaim now f s) := by
  intro h u s' hok
  simp only [releaseReconciliationClaim, bind_eq_ok, orRaise_eq_ok,
    Option.filter_eq_some_iff, pure_eq_ok, Prod.mk.injEq] at hok
  obtain ⟨-, -, j, ⟨hj, -⟩, -, rfl⟩ := hok
  exact h.setRead hj ⟨rfl, rfl, fun h => h⟩

/-- What passed the check of an artifact. -/
theorem validateArtifactInput_ok {item : GenerationArtifactInput} {u : Unit}
    (h : validateArtifactInput item = .ok u) :
    item.kind ∈ artifactKinds ∧ PyStr.blank item.stored.mimeType = false
      ∧ 0 ≤ item.stored.sizeBytes := by
  simp only [validateArtifactInput, seq_eq_ok, raiseIf_eq_ok, not_or, not_not] at h
  obtain ⟨hkind, -, -, -, -, -, hmime, hsize⟩ := h
  refine ⟨?_, by simpa using hmime, by omega⟩
  simp only [List.mem_cons, List.not_mem_nil, or_false, artifactKinds] at hkind ⊢
  tauto

theorem forM_ok {α ε : Type} {f : α → Except ε Unit} {l : List α} {u : Unit}
    (h : l.forM f = .ok u) : ∀ a ∈ l, f a = .ok () := by
  induction l with
  | nil => simp
  | cons a l ih =>
      rw [List.forM_eq_forM, List.forM_cons, seq_eq_ok] at h
      intro b hb
      rcases List.mem_cons.mp hb with rfl | hb
      · exact h.1
      · exact ih h.2 b hb

/-- Completion adds artifacts that were checked. -/
theorem complete_shows {book : Catalog.PriceBook} {f : Fence}
    {result : GenerationExecutionResult} : Shows s (complete book now f result s) := by
  intro h r s' hok
  simp only [complete, bind_eq_ok, orRaise_eq_ok, Fence.row_eq_some, pure_eq_ok,
    Prod.mk.injEq] at hok
  obtain ⟨-, -, j, ⟨hj, -⟩, -, -, -, -, -, -, -, -, u, hchecked, -, -, -, -, -, -, -, -, -,
    rfl⟩ := hok
  have hset : Presentable (s.setJob f.jobId (j.completed now result)) :=
    h.setRead hj ⟨rfl, rfl, fun _ => rfl⟩
  refine ⟨hset.jobs, fun id a ha => ?_, hset.keys⟩
  have hmem := Table.mem_rows_of_get ha
  rw [Table.rows_foldl_insert, List.mem_append, List.mem_map] at hmem
  rcases hmem with hold | ⟨item, hitem, rfl⟩
  · obtain ⟨i, hi⟩ := Table.get_of_mem_rows hold
    exact h.artifacts i a hi
  · exact validateArtifactInput_ok (forM_ok hchecked item hitem)

theorem takeClaim_presentable (h : Presentable s) {id : Nat} (hj : s.jobs.get id = some j)
    (hrow : Follows j row) : Presentable (takeClaim s id row).2 :=
  (h.setRead hj hrow).of_eq rfl rfl rfl

theorem claimAccepted_shows {locked : Nat → Bool} {tenantId jobId leaseSeconds : Nat}
    {workerId : String} :
    Shows s (claimAccepted now locked tenantId jobId workerId leaseSeconds s) := by
  intro h r s' hok
  simp only [claimAccepted, bind_eq_ok, pure_eq_ok] at hok
  obtain ⟨-, -, hok⟩ := hok
  split at hok
  · obtain ⟨-, rfl⟩ := Prod.mk.inj hok
    exact h
  · next j hj =>
      obtain ⟨-, rfl⟩ := Prod.mk.inj hok
      exact takeClaim_presentable h (Option.filter_eq_some_iff.mp hj).1
        ⟨rfl, rfl, fun h => h⟩

/-- What an ordered query returns first is a row. -/
theorem get_of_head {le : Nat × GenerationJob → Nat × GenerationJob → Bool}
    {p : Nat × GenerationJob → Bool} {e : Nat × GenerationJob}
    (h : (s.jobs.ordered le p).head? = some e) : s.jobs.get e.1 = some e.2 :=
  (Table.mem_ordered.mp (List.mem_of_mem_head? (by rw [h]; rfl : e ∈ _))).1

theorem claimNextAccepted_shows {locked : Nat → Bool} {tenantId : Option Nat}
    {modalities : Option (List Modality)} {leaseSeconds : Nat} {workerId : String} :
    Shows s (claimNextAccepted now locked tenantId modalities workerId leaseSeconds s) := by
  intro h r s' hok
  simp only [claimNextAccepted, bind_eq_ok, pure_eq_ok] at hok
  obtain ⟨-, -, hok⟩ := hok
  split at hok
  · obtain ⟨-, rfl⟩ := Prod.mk.inj hok
    exact h
  · next hhead =>
      obtain ⟨-, rfl⟩ := Prod.mk.inj hok
      exact takeClaim_presentable h (get_of_head hhead) ⟨rfl, rfl, fun h => h⟩

theorem claimPendingReconciliation_shows {locked : Nat → Bool} {leaseSeconds : Nat}
    {workerId : String} :
    Shows s (claimPendingReconciliation now locked workerId leaseSeconds s) := by
  intro h r s' hok
  simp only [claimPendingReconciliation, bind_eq_ok, pure_eq_ok] at hok
  obtain ⟨-, -, hok⟩ := hok
  split at hok
  · obtain ⟨-, rfl⟩ := Prod.mk.inj hok
    exact h
  · next hhead =>
      obtain ⟨-, rfl⟩ := Prod.mk.inj hok
      exact takeClaim_presentable h (get_of_head hhead) ⟨rfl, rfl, fun h => h⟩

theorem cancelAccepted_shows {tenantId actorUserId jobId : Nat} :
    Shows s (cancelAccepted now tenantId actorUserId jobId s) := by
  intro h u s' hok
  simp only [cancelAccepted, bind_eq_ok, orRaise_eq_ok, Option.filter_eq_some_iff] at hok
  obtain ⟨j, ⟨hj, -⟩, hok⟩ := hok
  split at hok
  · obtain ⟨-, rfl⟩ := Prod.mk.inj (pure_eq_ok.mp hok)
    exact h
  · simp only [bind_eq_ok, pure_eq_ok, Prod.mk.injEq] at hok
    obtain ⟨-, -, -, rfl⟩ := hok
    exact h.written hj rfl ⟨rfl, rfl, fun _ => rfl⟩ rfl rfl

theorem softDelete_shows {tenantId actorUserId jobId : Nat} :
    Shows s (softDelete now tenantId actorUserId jobId s) := by
  intro h u s' hok
  simp only [softDelete, bind_eq_ok, orRaise_eq_ok, Option.filter_eq_some_iff] at hok
  obtain ⟨j, ⟨hj, -⟩, hok⟩ := hok
  split at hok
  · obtain ⟨-, rfl⟩ := Prod.mk.inj (pure_eq_ok.mp hok)
    exact h
  · simp only [bind_eq_ok, pure_eq_ok, Prod.mk.injEq] at hok
    obtain ⟨-, -, -, rfl⟩ := hok
    have hset : Presentable (s.setJob jobId { j with deletedAt := some now, updatedAt := now }) :=
      h.setRead hj ⟨rfl, rfl, fun h => h⟩
    refine ⟨hset.jobs, fun id a ha => ?_, hset.keys⟩
    rw [Table.get_update, Option.map_eq_some_iff] at ha
    obtain ⟨a₀, ha₀, rfl⟩ := ha
    have hold := h.artifacts id a₀ ha₀
    split
    · exact hold
    · exact hold

-- the rows of a sweep are written as they were read, and stay one tenant's and
-- one product's
theorem stalled_presentable (l : List (Nat × GenerationJob)) (h : Presentable s)
    (hl : ∀ e ∈ l, ∀ j, s.jobs.get e.1 = some j →
      j.tenantId = e.2.tenantId ∧ j.productModelId = e.2.productModelId) :
    Presentable (l.foldl (fun s e => s.setJob e.1 (e.2.stalled now)) s) := by
  have hstalled : ∀ j : GenerationJob, (j.stalled now).tenantId = j.tenantId
      ∧ (j.stalled now).productModelId = j.productModelId
      ∧ (j.stalled now).errorCode.all isErrorCode = true := by
    intro j
    have hstalled : isErrorCode "GENERATION_WORKER_STALLED" = true := by decide
    have hunknown : isErrorCode "GENERATION_RECONCILIATION_REQUIRED" = true := by decide
    unfold GenerationJob.stalled
    split
    · exact ⟨rfl, rfl, hstalled⟩
    · exact ⟨rfl, rfl, hunknown⟩
  induction l generalizing s with
  | nil => exact h
  | cons e l ih =>
      obtain ⟨htenant, hproduct, hcode⟩ := hstalled e.2
      refine ih (h.setJob fun j hj => ?_) fun x hx j hj => ?_
      · obtain ⟨ht, hp⟩ := hl e List.mem_cons_self j hj
        exact ⟨htenant.trans ht.symm, hproduct.trans hp.symm, fun _ => hcode⟩
      · rcases Table.get_modify_cases hj with ⟨he, j₀, hj₀, rfl⟩ | ⟨-, hj⟩
        · obtain ⟨ht, hp⟩ := hl e List.mem_cons_self j₀ hj₀
          rw [← he] at hj₀
          obtain ⟨ht', hp'⟩ := hl x (List.mem_cons_of_mem _ hx) j₀ hj₀
          exact ⟨(htenant.trans ht.symm).trans ht', (hproduct.trans hp.symm).trans hp'⟩
        · exact hl x (List.mem_cons_of_mem _ hx) j hj

theorem reconcileStalledOnce_shows {staleSeconds limit : Nat} {locked : Nat → Bool} :
    Shows s (reconcileStalledOnce now staleSeconds limit locked s) := by
  intro h n s' hok
  simp only [reconcileStalledOnce, bind_eq_ok, pure_eq_ok, Prod.mk.injEq] at hok
  obtain ⟨-, -, -, rfl⟩ := hok
  refine stalled_presentable _ h fun e he j hj => ?_
  obtain ⟨hget, -⟩ := Table.mem_ordered.mp (List.mem_of_mem_take he)
  obtain rfl := Option.some.inj (hget.symm.trans hj)
  exact ⟨rfl, rfl⟩

theorem resolveFailedRequest_shows {tenantId jobId : Nat} {subject reason : String} :
    Shows s (resolveFailedRequest now tenantId jobId subject reason s) := by
  intro h rid s' hok
  simp only [resolveFailedRequest, bind_eq_ok, orRaise_eq_ok,
    Option.filter_eq_some_iff] at hok
  obtain ⟨j, ⟨hj, -⟩, hok⟩ := hok
  split at hok
  · simp only [bind_eq_ok, pure_eq_ok, Prod.mk.injEq] at hok
    obtain ⟨-, -, -, rfl⟩ := hok
    have hcode : isErrorCode "GENERATION_OPERATOR_RESOLVED_FAILED" = true := by decide
    exact h.written hj rfl ⟨rfl, rfl, fun _ => hcode⟩ rfl rfl
  · split at hok
    · simp only [bind_eq_ok, pure_eq_ok, Prod.mk.injEq] at hok
      obtain ⟨-, -, -, rfl⟩ := hok
      exact h
    · simp only [bind_eq_ok, pure_eq_ok, Prod.mk.injEq] at hok
      obtain ⟨-, -, -, rfl⟩ := hok
      exact h

theorem closeReconciliation_presentable (h : Presentable s) {tenantId jobId : Nat}
    {payload : List (String × String)} (hj : s.jobs.get jobId = some j) :
    Presentable (closeReconciliation now tenantId jobId j payload s) :=
  h.written hj rfl ⟨rfl, rfl, fun h => h⟩ rfl rfl

theorem resolveFailedFinish_shows {tenantId jobId : Nat} {subject : String} :
    Shows s (resolveFailedFinish now tenantId jobId subject s) := by
  intro h u s' hok
  simp only [resolveFailedFinish, bind_eq_ok, orRaise_eq_ok,
    Option.filter_eq_some_iff] at hok
  obtain ⟨j, ⟨hj, -⟩, hok⟩ := hok
  split at hok
  · obtain ⟨-, rfl⟩ := Prod.mk.inj (pure_eq_ok.mp hok)
    exact h
  · simp only [bind_eq_ok, pure_eq_ok, Prod.mk.injEq] at hok
    obtain ⟨-, -, -, rfl⟩ := hok
    exact closeReconciliation_presentable h hj

theorem markReconciliationResolved_presentable (h : Presentable s) (tenantId jobId : Nat) :
    Presentable (markReconciliationResolved now tenantId jobId s) := by
  unfold markReconciliationResolved
  split
  · exact h
  · next hj => exact closeReconciliation_presentable h (Option.filter_eq_some_iff.mp hj).1

/-- A route is one of the product the request names. -/
theorem resolveRoute_product {catalog : Catalog.CatalogRows} {tenantId : Nat}
    {request : CreateGenerationRequest} {route : DeploymentRoute}
    (h : resolveRoute catalog tenantId request = .ok route) :
    route.productModelId = request.productModelId := by
  simp only [resolveRoute, orRaise_eq_ok] at h
  obtain ⟨e, hmem, hroute⟩ := List.exists_of_findSome?_eq_some h
  obtain ⟨-, hrow⟩ := Table.mem_ordered.mp hmem
  simp only [Bool.and_eq_true, Option.any_eq_true, beq_iff_eq] at hrow
  obtain ⟨⟨-, p, hp, ⟨hkey, -⟩, -⟩, -⟩ := hrow
  unfold routeOf at hroute
  rw [hp] at hroute
  simp only [Option.bind_eq_bind, Option.bind_some, Option.bind_eq_some_iff] at hroute
  obtain ⟨granted, -, hroute⟩ := hroute
  split at hroute
  · cases hroute
  · simp only [Option.bind_eq_some_iff, Option.pure_def, Option.some.injEq] at hroute
    obtain ⟨-, -, rfl⟩ := hroute
    exact hkey

theorem accept_shows {catalog : Catalog.CatalogRows} {book : Catalog.PriceBook}
    {tenantId actorUserId : Nat} {request : CreateGenerationRequest} {hash : String}
    (hrequest : request.admitted = true) :
    Shows s (accept now catalog book tenantId actorUserId request hash s) := by
  intro h a s' hok
  unfold accept at hok
  split at hok
  · simp only [bind_eq_ok, pure_eq_ok, Prod.mk.injEq] at hok
    obtain ⟨-, -, -, -, -, rfl⟩ := hok
    exact h
  · simp only [acceptNew, bind_eq_ok, pure_eq_ok, Prod.mk.injEq] at hok
    obtain ⟨route, hroute, decision, -, ⟨reservation, billing⟩, -, -, rfl⟩ := hok
    refine ⟨fun id j hj => ?_, h.artifacts, fun id k hk => ?_⟩
    · rcases Table.get_insert_cases hj with ⟨-, rfl⟩ | hj
      · refine ⟨rfl, ?_⟩
        simp only [CreateGenerationRequest.admitted, Bool.and_eq_true] at hrequest
        show isProductModelId route.productModelId = true
        rw [resolveRoute_product hroute]
        exact hrequest.1.1.1.1
      · exact h.jobs id j hj
    · rcases Table.get_insert_cases hk with ⟨-, rfl⟩ | hk
      · exact ⟨_, Table.get_insert_self _ _, rfl⟩
      · obtain ⟨j, hj, htenant⟩ := h.keys id k hk
        exact ⟨j, Table.get_insert_of_some hj _, htenant⟩

-- ============================================================== processes

/-- No transaction breaks what can be shown. -/
theorem presentable_ops : OpsKeep Presentable where
  transition _ _ _ _ _ _ := transition_shows
  ensureLive _ _ _ _ _ := ensureLive_shows
  recordProviderTask _ _ _ _ := recordProviderTask_shows
  recordProviderRequest _ _ _ _ := recordProviderRequest_shows
  releaseReconciliationClaim _ _ _ := releaseReconciliationClaim_shows
  claimAccepted _ _ _ _ _ _ _ := claimAccepted_shows
  claimNextAccepted _ _ _ _ _ _ _ := claimNextAccepted_shows
  claimPendingReconciliation _ _ _ _ _ := claimPendingReconciliation_shows
  cancelAccepted _ _ _ _ _ := cancelAccepted_shows
  reconcileStalledOnce _ _ _ _ _ := reconcileStalledOnce_shows
  resolveFailedRequest _ _ _ _ _ _ := resolveFailedRequest_shows
  resolveFailedFinish _ _ _ _ _ := resolveFailedFinish_shows
  markReconciliationResolved _ _ _ _ h := markReconciliationResolved_presentable h _ _
  billing _ _ h := h.of_eq rfl rfl rfl

-- =================================================================== runs

/-- The requests a call brings have passed the contract. -/
def SiteAct.Checked : SiteAct → Prop
  | .generation (.accept _ _ _ _ request _) => request.admitted = true
  | _ => True

theorem worldStep_presentable {w : World} {a : Act}
    (ha : (SiteAct.generation a).Checked) (h : Presentable w.store) :
    Presentable (worldStep cfg w a).store := by
  refine worldStep_keeps presentable_ops (fun _ _ _ _ request hash heq => ?_)
    (fun _ _ _ _ => complete_shows) h
  subst heq
  exact accept_shows ha

theorem Presentable.modifyArtifact (h : Presentable s) (id : Nat)
    {f : GenerationArtifact → GenerationArtifact} (hkind : ∀ a, (f a).kind = a.kind)
    (hmime : ∀ a, (f a).stored.mimeType = a.stored.mimeType)
    (hsize : ∀ a, 0 ≤ a.stored.sizeBytes → 0 ≤ (f a).stored.sizeBytes) :
    Presentable { s with artifacts := s.artifacts.modify id f } := by
  refine ⟨h.jobs, fun i a ha => ?_, h.keys⟩
  rcases Table.get_modify_cases ha with ⟨rfl, a₀, ha₀, rfl⟩ | ⟨-, ha⟩
  · obtain ⟨hk, hm, hs⟩ := h.artifacts i a₀ ha₀
    rw [hkind, hmime]
    exact ⟨hk, hm, hsize a₀ hs⟩
  · exact h.artifacts i a ha

theorem siteStep_presentable {w : Site} {a : SiteAct} (ha : a.Checked)
    (h : Presentable w.world.store) : Presentable (siteStep cfg w a).world.store := by
  cases a with
  | generation a => exact worldStep_presentable ha h
  | softDelete now tenantId actorUserId jobId => exact call_keeps softDelete_shows h
  | claimDeletion now locked =>
      simp only [siteStep, claimDeletion]
      split
      · exact h
      · next heq =>
          split at heq
          · cases heq
          · obtain ⟨-, rfl⟩ := Prod.mk.inj heq
            exact h.modifyArtifact _ (fun _ => rfl) (fun _ => rfl) fun _ hs => hs
  | finishDeletion pid now deleted =>
      simp only [siteStep]
      split
      · exact h
      · next c _ =>
          split
          · split
            · next hok =>
                simp only [completeDeletion, bind_eq_ok, pure_eq_ok, Prod.mk.injEq] at hok
                obtain ⟨-, -, -, rfl⟩ := hok
                exact h.modifyArtifact _ (fun _ => rfl) (fun _ => rfl)
                  fun _ _ => le_refl (0 : Int)
            · exact h
          · show Presentable (retryDeletion now c w.world.store)
            unfold retryDeletion
            split
            · exact h
            · exact h.modifyArtifact _ (fun _ => rfl) (fun _ => rfl) fun _ hs => hs

theorem SiteOpening.presentable {w : Site} (h : SiteOpening w) :
    Presentable w.world.store := by
  refine ⟨?_, ?_, ?_⟩
  · rw [h.world.jobs]
    simp
  · rw [h.artifacts]
    simp
  · rw [h.idempotency]
    simp

/-- Every job of every run can be shown, as far as `Presentable` goes. -/
theorem run_presentable {w : Site} (hopen : SiteOpening w) {acts : List SiteAct}
    (hchecked : ∀ a ∈ acts, a.Checked) :
    Presentable (run (siteStep cfg) w acts).world.store := by
  have hpresentable := hopen.presentable
  clear hopen
  induction acts generalizing w with
  | nil => exact hpresentable
  | cons a acts ih =>
      exact ih (fun b hb => hchecked b (List.mem_cons_of_mem _ hb))
        (siteStep_presentable (hchecked a List.mem_cons_self) hpresentable)

end Mosaic.Generation
