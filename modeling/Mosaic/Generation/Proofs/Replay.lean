/-
A replayed acceptance and the response it is answered with.

Every stored job is `Presentable`, which is most of the contract. What is
left of it: a status the artifact model knows, and a list of at most
sixty-four. An artifact under deletion is `delete_pending`, which the
model lacks, and a delivery may bring any number of images; a replay
answers exactly when neither is the case (`replay_answers_iff`).
-/
import Mosaic.Generation.Proofs.Presentable

namespace Mosaic.Generation

open Lib

variable {s : Store} {j : GenerationJob} {now : Nat}

-- ================================================================ replays

/-- The columns of `generation_artifacts` hold what they are declared for. -/
def ColumnsHold (s : Store) : Prop :=
  ∀ id a, s.artifacts.get id = some a → PyStr.len a.stored.mimeType ≤ 255

theorem artifactResponse_isOk_iff {e : Nat × GenerationArtifact} (h : Presentable s)
    (hcolumns : ColumnsHold s) (he : s.artifacts.get e.1 = some e.2) :
    (∃ r, artifactResponse e = .ok r) ↔ e.2.status ≠ .deletePending := by
  obtain ⟨hkind, hmime, hsize⟩ := h.artifacts e.1 e.2 he
  have hlen : boundedLength 255 e.2.stored.mimeType = true := by
    have hle := hcolumns e.1 e.2 he
    have hpos : 1 ≤ PyStr.len e.2.stored.mimeType := by
      unfold PyStr.blank at hmime
      unfold PyStr.len
      cases hc : e.2.stored.mimeType.toList with
      | nil => simp [hc] at hmime
      | cons c cs => simp
    simp [boundedLength, hpos, hle]
  simp only [artifactResponse, bind_eq_ok, raiseIf_eq_ok, orRaise_eq_ok, pure_eq_ok, hkind,
    hlen, not_true, not_false_iff, exists_const, true_and, not_lt.mpr hsize, Bool.true_eq_false]
  cases e.2.status <;> simp [ArtifactStatus.public?]

theorem publicResponse_isOk_iff {r : GenerationRecord}
    {artifacts : List (Nat × GenerationArtifact)} (h : Presentable s)
    (hcolumns : ColumnsHold s) (hr : s.jobs.get r.jobId = some r.job)
    (hartifacts : ∀ e ∈ artifacts, s.artifacts.get e.1 = some e.2) :
    (∃ response, publicResponse r artifacts = .ok response) ↔
      (∀ e ∈ artifacts, e.2.status ≠ .deletePending) ∧ artifacts.length ≤ 64 := by
  obtain ⟨hcode, hproduct⟩ := h.jobs r.jobId r.job hr
  have hall : (∀ e ∈ artifacts, ∃ x, artifactResponse e = .ok x)
      ↔ ∀ e ∈ artifacts, e.2.status ≠ .deletePending :=
    forall₂_congr fun e he => artifactResponse_isOk_iff h hcolumns (hartifacts e he)
  rw [← hall, ← mapM_isOk_iff]
  simp only [publicResponse, bind_eq_ok, raiseIf_eq_ok, pure_eq_ok, hcode, hproduct]
  constructor
  · rintro ⟨response, xs, hxs, -, -, -, -, -, hlen, -⟩
    rw [mapM_length hxs] at hlen
    exact ⟨⟨xs, hxs⟩, by omega⟩
  · rintro ⟨⟨xs, hxs⟩, hlen⟩
    have hshort := mapM_length hxs
    exact ⟨_, xs, hxs, (), by simp, (), by simp, (), by omega, rfl⟩

/-- A call that replays answers with the job it made, or with the failure to show
it. -/
theorem createGeneration_replay {catalog : Catalog.CatalogRows} {book : Catalog.PriceBook}
    {tenantId actorUserId : Nat} {request : CreateGenerationRequest} {hash : String} {i : Nat}
    {k : IdempotencyRecord} (hj : s.jobs.get k.resourceId = some j)
    (htenant : j.tenantId = tenantId)
    (hkey : s.idempotency.find (fun i => i.tenantId == tenantId
      && i.actorUserId == actorUserId && i.key == PyStr.strip request.clientRequestId)
        = some (i, k)) (hsame : k.requestHash = hash) :
    createGeneration now catalog book tenantId actorUserId request hash s
      = ((publicResponse ⟨k.resourceId, j⟩ (artifactsOf s tenantId k.resourceId)).mapError
          AcceptFailure.contract).map fun response => (response, s) := by
  have haccept : accept now catalog book tenantId actorUserId request hash s
      = .ok ({ record := ⟨k.resourceId, j⟩, replayed := true }, s) := by
    have hjob : (s.jobs.get k.resourceId).filter (fun j => j.tenantId == tenantId)
        = some j := by
      rw [hj]
      simp [Option.filter, htenant]
    unfold accept
    rw [hkey]
    simp [raiseIf, hsame, hjob, orRaise, bind, Except.bind, pure, Except.pure]
  unfold createGeneration
  rw [haccept]
  simp only [Except.mapError, bind, Except.bind, pure, Except.pure, Except.map]

/-- **Acceptance replay**: in every state of every run, repeating an accepted call fails
the response contract unless none of the job's artifacts is under deletion and there
are at most sixty-four of them. -/
theorem replay_answers_iff (cfg : Config) (w : Site) (hopen : SiteOpening w)
    (acts : List SiteAct) (hchecked : ∀ a ∈ acts, a.Checked) (s : Store)
    (hs : (run (siteStep cfg) w acts).world.store = s) (hcolumns : ColumnsHold s)
    (now : Nat) (catalog : Catalog.CatalogRows) (tenantId actorUserId : Nat)
    (request : CreateGenerationRequest) (requestHash : String) (i : Nat)
    (k : IdempotencyRecord)
    (hkey : s.idempotency.find (fun i => i.tenantId == tenantId
      && i.actorUserId == actorUserId && i.key == PyStr.strip request.clientRequestId)
        = some (i, k)) (hsame : k.requestHash = requestHash) :
    (∀ e, createGeneration now catalog cfg.book tenantId actorUserId request requestHash s
        ≠ .error (.contract e))
      ↔ (∀ e ∈ artifactsOf s tenantId k.resourceId, e.2.status ≠ .deletePending)
        ∧ (artifactsOf s tenantId k.resourceId).length ≤ 64 := by
  subst hs
  have hpresentable : Presentable (run (siteStep cfg) w acts).world.store :=
    run_presentable hopen hchecked
  obtain ⟨hget, hfound⟩ := Table.find_some hkey
  obtain ⟨j, hj, htenant⟩ := hpresentable.keys i k hget
  simp only [Bool.and_eq_true, beq_iff_eq] at hfound
  rw [createGeneration_replay hj (htenant.trans hfound.1.1) hkey hsame]
  have hrows : ∀ e ∈ artifactsOf (run (siteStep cfg) w acts).world.store tenantId
      k.resourceId, (run (siteStep cfg) w acts).world.store.artifacts.get e.1 = some e.2 :=
    fun e he => Table.mem_entries.mp (List.mem_of_mem_filter he)
  rw [← publicResponse_isOk_iff (r := ⟨k.resourceId, j⟩) hpresentable hcolumns hj hrows]
  cases publicResponse ⟨k.resourceId, j⟩ _ with
  | error e => simp [Except.mapError, Except.map]
  | ok response => simp [Except.mapError, Except.map]

-- ================================================================ samples

def sampleSite : Site := { world := sampleWorld, updatedAt := fun _ => 0, claims := Table.empty }

theorem sampleSite_opening : SiteOpening sampleSite := ⟨sampleWorld_opening, rfl, rfl, rfl⟩

/-- A video is made and its job deleted by the user. -/
def deletedRun : List SiteAct :=
  [.generation sampleAccept, .generation sampleClaim]
    ++ List.replicate 15 (.generation sampleWork) ++ [.softDelete 100 1 2 0]

/-- The request of the sample, once more. -/
def sampleReplay (w : Site) : Except AcceptFailure (GenerationJobResponse × Store) :=
  createGeneration 300 sampleCatalog sampleConfig.book 1 2
    { productModelId := "wan-video", modality := .video
      input := { prompt := some "a cat" }, clientRequestId := "k1" } "hash" w.world.store

theorem deletedRun_checked : ∀ a ∈ deletedRun, a.Checked := by
  intro a ha
  simp only [deletedRun, List.mem_append, List.mem_cons, List.not_mem_nil, or_false,
    List.mem_replicate] at ha
  rcases ha with ((rfl | rfl) | ⟨-, rfl⟩) | rfl
  · show CreateGenerationRequest.admitted _ = true
    decide
  · trivial
  · trivial
  · trivial

/-- The artifact is expired, and the response shows it. -/
theorem replay_answers_iff_sample :
    ¬ ∃ e, sampleReplay (run (siteStep sampleConfig) sampleSite deletedRun)
      = .error (.contract e) := by
  refine not_exists.mpr ((replay_answers_iff sampleConfig sampleSite sampleSite_opening
    deletedRun deletedRun_checked _ rfl ?_ 300 sampleCatalog 1 2 _ "hash" 0
    ⟨1, 2, "k1", "hash", 0⟩ (by rfl) rfl).mpr ⟨?_, ?_⟩)
  · intro id a ha
    obtain rfl : id = 0 := by
      have hlt := Table.lt_nextId ha
      have hone : (run (siteStep sampleConfig) sampleSite
          deletedRun).world.store.artifacts.nextId = 1 := by rfl
      omega
    obtain rfl := Option.some.inj ha
    decide
  · decide +kernel
  · decide +kernel

/-- The cleanup has claimed the artifact: the response has no word for its status. -/
theorem deletion_under_way_unrepresentable :
    ¬ ∀ e, sampleReplay (run (siteStep sampleConfig) sampleSite
        (deletedRun ++ [.claimDeletion 200 fun _ => false])) ≠ .error (.contract e) := by
  have hfails : (match sampleReplay (run (siteStep sampleConfig) sampleSite
        (deletedRun ++ [.claimDeletion 200 fun _ => false])) with
      | .error e => some e
      | .ok _ => none)
      = some (AcceptFailure.contract ⟨"GenerationArtifactResponse", "status"⟩) := by
    decide +kernel
  intro hanswers
  cases hreplay : sampleReplay (run (siteStep sampleConfig) sampleSite
      (deletedRun ++ [.claimDeletion 200 fun _ => false])) with
  | ok response =>
      rw [hreplay] at hfails
      cases hfails
  | error e =>
      rw [hreplay] at hfails
      obtain rfl := Option.some.inj hfails
      exact hanswers _ hreplay

end Mosaic.Generation
