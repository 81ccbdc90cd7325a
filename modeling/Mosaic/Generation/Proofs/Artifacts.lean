/-
Where artifacts come from.

Only a completion writes the artifact table of the generation system
(`worldStep_artifacts`): it inserts the artifacts of a result, ready, for
a job that was `storing`. The result in a process is one its storage
returned, for its own job (`Deals`), so a property the storage gives the
keys of a job holds of the keys in the table.
-/
import Mosaic.Generation.Proofs.Acts
import Mosaic.Generation.Proofs.Keeps

namespace Mosaic.Generation

open Lib Providers

variable {cfg : Config} {env : Env} {w : World} {a : Act} {s s' : Store} {now : Nat}

-- ================================================================ frames

theorem keeps_of_artifacts {α : Type} {Q : Table GenerationArtifact → Prop}
    {x : Except GenerationError (α × Store)}
    (h : ∀ a s', x = .ok (a, s') → s'.artifacts = s.artifacts) :
    Keeps (fun s => Q s.artifacts) s x := by
  intro hQ a s' hok
  show Q s'.artifacts
  rw [h a s' hok]
  exact hQ

theorem foldl_stalled_artifacts (l : List (Nat × GenerationJob)) (s : Store) :
    (l.foldl (fun s e => s.setJob e.1 (e.2.stalled now)) s).artifacts = s.artifacts := by
  induction l generalizing s with
  | nil => rfl
  | cons e l ih => exact ih _

/-- No transaction but a completion writes an artifact. -/
theorem opsKeep_artifacts (Q : Table GenerationArtifact → Prop) :
    OpsKeep fun s => Q s.artifacts where
  transition s now f expected target v := by
    refine keeps_of_artifacts fun r s' hok => ?_
    obtain ⟨j, -, -, -, -, -, rfl⟩ := transition_ok hok
    rfl
  ensureLive s now f workerId leaseSeconds := by
    refine keeps_of_artifacts fun u s' hok => ?_
    simp only [ensureLive, bind_eq_ok, pure_eq_ok, Prod.mk.injEq] at hok
    obtain ⟨-, -, j, -, -, rfl⟩ := hok
    rfl
  recordProviderTask s now f taskId := by
    refine keeps_of_artifacts fun u s' hok => ?_
    simp only [recordProviderTask, bind_eq_ok, pure_eq_ok, Prod.mk.injEq] at hok
    obtain ⟨-, -, -, -, j, -, -, -, -, rfl⟩ := hok
    rfl
  recordProviderRequest s now f requestId := by
    refine keeps_of_artifacts fun u s' hok => ?_
    simp only [recordProviderRequest, bind_eq_ok, pure_eq_ok, Prod.mk.injEq] at hok
    obtain ⟨-, -, -, -, j, -, -, -, -, rfl⟩ := hok
    rfl
  releaseReconciliationClaim s now f := by
    refine keeps_of_artifacts fun u s' hok => ?_
    simp only [releaseReconciliationClaim, bind_eq_ok, pure_eq_ok, Prod.mk.injEq] at hok
    obtain ⟨-, -, j, -, -, rfl⟩ := hok
    rfl
  claimAccepted s now locked tenantId jobId workerId leaseSeconds := by
    refine keeps_of_artifacts fun r s' hok => ?_
    simp only [claimAccepted, bind_eq_ok, pure_eq_ok] at hok
    obtain ⟨-, -, hok⟩ := hok
    split at hok
    · obtain ⟨-, rfl⟩ := Prod.mk.inj hok
      rfl
    · obtain ⟨-, rfl⟩ := Prod.mk.inj hok
      rfl
  claimNextAccepted s now locked tenantId modalities workerId leaseSeconds := by
    refine keeps_of_artifacts fun r s' hok => ?_
    simp only [claimNextAccepted, bind_eq_ok, pure_eq_ok] at hok
    obtain ⟨-, -, hok⟩ := hok
    split at hok
    · obtain ⟨-, rfl⟩ := Prod.mk.inj hok
      rfl
    · obtain ⟨-, rfl⟩ := Prod.mk.inj hok
      rfl
  claimPendingReconciliation s now locked workerId leaseSeconds := by
    refine keeps_of_artifacts fun r s' hok => ?_
    simp only [claimPendingReconciliation, bind_eq_ok, pure_eq_ok] at hok
    obtain ⟨-, -, hok⟩ := hok
    split at hok
    · obtain ⟨-, rfl⟩ := Prod.mk.inj hok
      rfl
    · obtain ⟨-, rfl⟩ := Prod.mk.inj hok
      rfl
  cancelAccepted s now tenantId actorUserId jobId := by
    refine keeps_of_artifacts fun u s' hok => ?_
    simp only [cancelAccepted, bind_eq_ok] at hok
    obtain ⟨j, -, hok⟩ := hok
    split at hok
    · obtain ⟨-, rfl⟩ := Prod.mk.inj (pure_eq_ok.mp hok)
      rfl
    · simp only [bind_eq_ok, pure_eq_ok, Prod.mk.injEq] at hok
      obtain ⟨-, -, -, rfl⟩ := hok
      rfl
  reconcileStalledOnce s now staleSeconds limit locked := by
    refine keeps_of_artifacts fun n s' hok => ?_
    simp only [reconcileStalledOnce, bind_eq_ok, pure_eq_ok, Prod.mk.injEq] at hok
    obtain ⟨-, -, -, rfl⟩ := hok
    exact foldl_stalled_artifacts _ s
  resolveFailedRequest s now tenantId jobId subject reason := by
    refine keeps_of_artifacts fun rid s' hok => ?_
    simp only [resolveFailedRequest, bind_eq_ok] at hok
    obtain ⟨j, -, hok⟩ := hok
    split at hok
    · simp only [bind_eq_ok, pure_eq_ok, Prod.mk.injEq] at hok
      obtain ⟨-, -, -, rfl⟩ := hok
      rfl
    · split at hok
      · simp only [bind_eq_ok, pure_eq_ok, Prod.mk.injEq] at hok
        obtain ⟨-, -, -, rfl⟩ := hok
        rfl
      · simp only [bind_eq_ok, pure_eq_ok, Prod.mk.injEq] at hok
        obtain ⟨-, -, -, rfl⟩ := hok
        rfl
  resolveFailedFinish s now tenantId jobId subject := by
    refine keeps_of_artifacts fun u s' hok => ?_
    simp only [resolveFailedFinish, bind_eq_ok] at hok
    obtain ⟨j, -, hok⟩ := hok
    split at hok
    · obtain ⟨-, rfl⟩ := Prod.mk.inj (pure_eq_ok.mp hok)
      rfl
    · simp only [bind_eq_ok, pure_eq_ok, Prod.mk.injEq] at hok
      obtain ⟨-, -, -, rfl⟩ := hok
      rfl
  markReconciliationResolved s now tenantId jobId h := by
    unfold markReconciliationResolved
    split
    · exact h
    · exact h
  billing _ _ h := h

/-- Nor does an acceptance. -/
theorem accept_artifacts {catalog : Catalog.CatalogRows} {book : Catalog.PriceBook}
    {tenantId actorUserId : Nat} {request : CreateGenerationRequest} {hash : String}
    {x : AcceptedGeneration}
    (h : accept now catalog book tenantId actorUserId request hash s = .ok (x, s')) :
    s'.artifacts = s.artifacts := by
  unfold accept at h
  split at h
  · simp only [bind_eq_ok, pure_eq_ok, Prod.mk.injEq] at h
    obtain ⟨-, -, -, -, -, rfl⟩ := h
    rfl
  · simp only [acceptNew, bind_eq_ok, pure_eq_ok, Prod.mk.injEq] at h
    obtain ⟨route, -, decision, -, ⟨reservation, billing⟩, -, -, rfl⟩ := h
    rfl

-- =========================================================== completion

/-- The row of an artifact of a result. -/
def readyRow (tenantId jobId : Nat) (item : GenerationArtifactInput) : GenerationArtifact :=
  { tenantId, generationJobId := jobId, kind := item.kind, status := .ready
    stored := item.stored }

/-- What a completion does to the artifacts. -/
theorem complete_artifacts {book : Catalog.PriceBook} {f : Fence}
    {result : GenerationExecutionResult} {r : GenerationRecord}
    (h : complete book now f result s = .ok (r, s')) :
    ∃ j, s.jobs.get f.jobId = some j ∧ j.tenantId = f.tenantId ∧ j.status = .storing
      ∧ s'.jobs = (s.setJob f.jobId (j.completed now result)).jobs
      ∧ s'.artifacts
        = (result.artifacts.map (readyRow f.tenantId f.jobId)).foldl Table.insert s.artifacts := by
  simp only [complete, bind_eq_ok, orRaise_eq_ok, Fence.row_eq_some, raiseIf_eq_ok,
    not_not, pure_eq_ok, Prod.mk.injEq] at h
  obtain ⟨-, -, j, ⟨hj, hlive, -⟩, -, hstatus, -, -, -, -, -, -, -, -, -, -, -, -, -, -,
    -, -, -, rfl⟩ := h
  have htenant : j.tenantId = f.tenantId := by
    simp only [Fence.live, Fence.matches, Bool.and_eq_true, beq_iff_eq] at hlive
    exact hlive.1.1.1
  refine ⟨j, hj, htenant, hstatus, rfl, ?_⟩
  rw [← htenant]
  rfl

/-- What an act does to the artifacts: nothing, or it is a completion. -/
theorem worldStep_artifacts (cfg : Config) (w : World) (a : Act) :
    (worldStep cfg w a).store.artifacts = w.store.artifacts
      ∨ ∃ now f result r s', Completes w a now f result
        ∧ complete cfg.book now f result w.store = .ok (r, s')
        ∧ (worldStep cfg w a).store.artifacts = s'.artifacts := by
  have ops := opsKeep_artifacts fun t => t = w.store.artifacts
      ∨ ∃ now f result r s', Completes w a now f result
        ∧ complete cfg.book now f result w.store = .ok (r, s') ∧ t = s'.artifacts
  refine worldStep_keeps ops (fun _ _ _ _ _ _ _ => ?_) (fun now f result hact => ?_)
    (Or.inl rfl)
  · intro hQ x s' hok
    rw [accept_artifacts hok]
    exact hQ
  · exact fun _ r s' hok => Or.inr ⟨now, f, result, r, s', hact, hok, rfl⟩

-- ============================================================= dealings

/-- The result a worker carries. -/
def WorkerPc.result : WorkerPc → Option GenerationExecutionResult
  | .afterProvider result => some result
  | .toRunning result => some result
  | .toStoring result => some result
  | .beforeCapture result => some result
  | .complete result => some result
  | _ => none

/-- The result a recovery carries. -/
def RecoveryPc.result : RecoveryPc → Option GenerationExecutionResult
  | .toRunning result => some result
  | .toStoring result => some result
  | .complete result => some result
  | _ => none

/-- The keys in a result are keys of the job. -/
def KeysOf (K : Nat → Nat → String → Prop) (tenantId jobId : Nat)
    (result : GenerationExecutionResult) : Prop :=
  ∀ item ∈ result.artifacts, K tenantId jobId item.stored.objectKey

/-- What a process carries has keys of its own job. -/
def Party.Deals (K : Nat → Nat → String → Prop) : Party → Prop
  | .worker p => ∀ result, p.pc.result = some result →
      KeysOf K p.record.job.tenantId p.record.jobId result
  | .recovery p => (∀ result, p.pc.result = some result →
        KeysOf K p.fence.tenantId p.fence.jobId result)
      ∧ (p.pc = .recover → p.fence.tenantId = p.record.job.tenantId
        ∧ p.fence.jobId = p.record.jobId)
  | _ => True

/-- What the storage answers a process is an artifact of its job. -/
def Party.Stores (K : Nat → Nat → String → Prop) (env : Env) : Party → Prop
  | .worker p => (∃ d, p.pc = .store d) → ∀ i a, env.storage i = some a →
      K p.record.job.tenantId p.record.jobId a.objectKey
  | .recovery p => p.pc = .recover → ∀ i a, env.storage i = some a →
      K p.record.job.tenantId p.record.jobId a.objectKey
  | _ => True

variable {K : Nat → Nat → String → Prop}

/-- The artifacts of a result are the stored ones. -/
theorem Delivery.mem_result {d : Delivery} {stored : List StoredArtifact}
    {result : GenerationExecutionResult} (h : d.result stored = .ok result)
    {item : GenerationArtifactInput} (hitem : item ∈ result.artifacts) :
    item.stored ∈ stored := by
  simp only [Delivery.result, bind_eq_ok, pure_eq_ok] at h
  obtain ⟨bytes, -, rfl⟩ := h
  obtain ⟨a, ha, rfl⟩ := List.mem_map.mp hitem
  exact ha

/-- A delivery stores what the storage answers. -/
theorem Delivery.result_keys {d : Delivery} {storage : Nat → Option StoredArtifact}
    {result : GenerationExecutionResult} {tenantId jobId : Nat}
    (h : d.store storage >>= d.result = .ok result)
    (hstorage : ∀ i a, storage i = some a → K tenantId jobId a.objectKey) :
    KeysOf K tenantId jobId result := by
  obtain ⟨stored, hstored, hresult⟩ := bind_eq_ok.mp h
  intro item hitem
  have ha := Delivery.mem_result hresult hitem
  -- every stored artifact is one of the answers
  have hanswer : ∀ (l : List Nat) (out : List StoredArtifact),
      l.mapM (fun i => orRaise (storage i) (ExecuteError.other)) = .ok out →
      ∀ a ∈ out, ∃ i, storage i = some a := by
    intro l
    induction l with
    | nil =>
        intro out hout a ha
        obtain rfl := pure_eq_ok.mp hout
        cases ha
    | cons i l ih =>
        intro out hout a ha
        simp only [List.mapM_cons, bind_eq_ok, orRaise_eq_ok, pure_eq_ok] at hout
        obtain ⟨x, hx, rest, hrest, rfl⟩ := hout
        rcases List.mem_cons.mp ha with rfl | ha
        · exact ⟨i, hx⟩
        · exact ih rest hrest a ha
  obtain ⟨i, hi⟩ := hanswer _ _ hstored _ ha
  exact hstorage i _ hi

/-- So does a recovery. -/
theorem recoverVideo_keys {asset : String → Option String} {configured : Bool}
    {r : GenerationRecord} {x : Exchange VideoTaskResponse}
    {storage : Nat → Option StoredArtifact} {result : GenerationExecutionResult}
    {tenantId jobId : Nat} (h : recoverVideo asset configured r x storage = .ok (some result))
    (hstorage : ∀ i a, storage i = some a → K tenantId jobId a.objectKey) :
    KeysOf K tenantId jobId result := by
  simp only [recoverVideo, bind_eq_ok] at h
  obtain ⟨_, -, taskId, -, _, -, _, -, task, -, h⟩ := h
  split at h
  · cases pure_eq_ok.mp h
  · simp only [bind_eq_ok, orRaise_eq_ok, pure_eq_ok, Option.some.injEq] at h
    obtain ⟨_, -, a, ha, values, -, requested, -, result', hresult, rfl⟩ := h
    intro item hitem
    have hmem := Delivery.mem_result hresult hitem
    rw [List.mem_singleton.mp hmem]
    exact hstorage 0 a ha

-- =============================================================== workers

section

variable {p p' : Worker} {f : Fence} {r : GenerationRecord}

/-- A worker that carries nothing. -/
theorem Worker.deals_of_none (h : p.pc.result = none) : (Party.worker p).Deals K :=
  fun result hresult => absurd (h.symm.trans hresult) (by simp)

/-- The exception branch carries nothing. -/
theorem Worker.raise_result (p : Worker) (e : ExecuteError) : (p.raise e).pc.result = none := by
  unfold Worker.raise
  dsimp only
  split
  · rfl
  · split
    · rfl
    · split
      · rfl
      · rfl

/-- A record of the same job. -/
def GenerationRecord.Same (r r' : GenerationRecord) : Prop :=
  r'.jobId = r.jobId ∧ r'.job.tenantId = r.job.tenantId

theorem Worker.transition_same {target : GenerationStatus} {v : TransitionValues}
    (h : p.transition now target v s = .ok (r, s')) : p.record.Same r := by
  simp only [Worker.transition, bind_eq_ok] at h
  obtain ⟨f, hf, h⟩ := h
  obtain ⟨j, hj, hlive, -, -, rfl, -⟩ := Generation.transition_ok h
  obtain ⟨htenant, hid, -⟩ := Worker.fence_ok hf
  refine ⟨hid, ?_⟩
  simp only [Fence.live, Fence.matches, Bool.and_eq_true, beq_iff_eq] at hlive
  exact hlive.1.1.1.trans htenant

/-- A database call that goes on with what was carried. -/
theorem Worker.advance_deals {db : DbOutcome} {next : WorkerPc}
    {call : Except GenerationError (GenerationRecord × Store)}
    (hrecord : ∀ r s', call = .ok (r, s') → p.record.Same r)
    (hnext : next.result = none ∨ next.result = p.pc.result)
    (h : (Party.worker p).Deals K) : (Party.worker (p.advance db next s call).1).Deals K := by
  unfold Worker.advance
  split
  · exact Worker.deals_of_none (p.raise_result _)
  · next r _ hcall =>
      intro result hresult
      rcases hnext with hnext | hnext
      · exact absurd (hnext.symm.trans hresult) (by simp)
      · have hsame : p.record.Same r := by
          obtain ⟨habsurd, -⟩ | ⟨x, hx, hnone | hsome⟩ := attempt_cases hcall
          · cases habsurd
          · cases hnone
          · obtain rfl := Option.some.inj hsome
            exact hrecord _ _ hx
        show KeysOf K r.job.tenantId r.jobId result
        rw [hsame.1, hsame.2]
        exact h result (hnext.symm.trans hresult)

theorem Worker.recording_deals {db : DbOutcome} {next : WorkerPc}
    {call : Fence → Except GenerationError (Unit × Store)} (hnext : next.result = none) :
    (Party.worker (p.recording db next s call).1).Deals K := by
  unfold Worker.recording
  split
  · exact Worker.deals_of_none (p.raise_result _)
  · exact Worker.deals_of_none hnext

/-- A step of a worker. -/
theorem workerStep_deals (hstores : (Party.worker p).Stores K env)
    (h : (Party.worker p).Deals K) : (Party.worker (workerStep cfg env p s).1).Deals K := by
  obtain ⟨record, workerId, clock, pc⟩ := p
  have hturn : ∀ {q : Worker} {target v} {r : GenerationRecord} {s' : Store},
      q.transition (clock + env.elapsed) target v s = .ok (r, s') → q.record.Same r :=
    fun hok => Worker.transition_same hok
  have hbeat : ∀ {q : Worker} {n : Nat} {r : GenerationRecord} {s' : Store},
      q.heartbeat (clock + env.elapsed) n s = .ok (r, s') → q.record.Same r := by
    intro q n r s' hok
    rw [(Worker.heartbeat_ok hok).1]
    exact ⟨rfl, rfl⟩
  cases pc with
  | begin =>
      have hbegin : ∀ q : Worker, q.pc = .begin → (beginStep q).pc.result = none := by
        intro q hq
        unfold beginStep
        split
        · rfl
        · split
          · rfl
          · split
            · rfl
            · rfl
      exact Worker.deals_of_none (hbegin _ rfl)
  | toQueued => exact Worker.advance_deals (fun _ _ => hturn) (Or.inl rfl) h
  | beforeProvider => exact Worker.advance_deals (fun _ _ => hbeat) (Or.inl rfl) h
  | admission =>
      have hadmitted : ∀ q : Worker, (admitStep env q).pc.result = none := by
        intro q
        unfold admitStep
        split
        · exact q.raise_result _
        · exact q.raise_result _
        · rfl
        · rfl
      exact Worker.deals_of_none (hadmitted _)
  | requeue => exact Worker.advance_deals (fun _ _ => hturn) (Or.inl rfl) h
  | toSubmitted ports => exact Worker.advance_deals (fun _ _ => hturn) (Or.inl rfl) h
  | execute ports =>
      refine Worker.deals_of_none ?_
      show (executeStep cfg env _ ports).pc.result = none
      unfold executeStep
      split
      · exact Worker.raise_result _ _
      · split
        · exact Worker.raise_result _ _
        · next outcome _ =>
            cases outcome with
            | delivered d => rfl
            | task taskId durationSeconds => rfl
  | recordTask taskId durationSeconds =>
      dsimp only [workerStep]
      split
      · exact Worker.deals_of_none (Worker.raise_result _ _)
      · exact Worker.recording_deals rfl
  | poll taskId durationSeconds deadline =>
      refine Worker.deals_of_none ?_
      show (pollStep cfg env _ taskId durationSeconds deadline).pc.result = none
      unfold pollStep
      split
      · exact Worker.raise_result _ _
      · split
        · exact Worker.raise_result _ _
        · rfl
        · rfl
  | recordRequest d =>
      dsimp only [workerStep]
      split
      · exact Worker.deals_of_none (Worker.raise_result _ _)
      · split
        · exact Worker.deals_of_none rfl
        · exact Worker.recording_deals rfl
  | store d =>
      show (Party.worker (storeStep env _ d)).Deals K
      unfold storeStep
      split
      · exact Worker.deals_of_none (Worker.raise_result _ _)
      · split
        · exact Worker.deals_of_none (Worker.raise_result _ _)
        · next result hresult =>
            intro result' hresult'
            obtain rfl := Option.some.inj hresult'
            exact Delivery.result_keys hresult (hstores ⟨d, rfl⟩)
  | afterProvider result => exact Worker.advance_deals (fun _ _ => hbeat) (Or.inr rfl) h
  | toRunning result => exact Worker.advance_deals (fun _ _ => hturn) (Or.inr rfl) h
  | toStoring result => exact Worker.advance_deals (fun _ _ => hturn) (Or.inr rfl) h
  | beforeCapture result => exact Worker.advance_deals (fun _ _ => hbeat) (Or.inr rfl) h
  | complete result =>
      dsimp only [workerStep]
      unfold Worker.advance
      split
      · exact Worker.deals_of_none (Worker.raise_result _ _)
      · exact Worker.deals_of_none rfl
  | capture result =>
      dsimp only [workerStep]
      split
      · exact Worker.deals_of_none rfl
      · exact Worker.deals_of_none rfl
  | failing errorCode release =>
      refine Worker.deals_of_none ?_
      cases release
      · rfl
      · rfl
  | releasing =>
      dsimp only [workerStep]
      split
      · exact Worker.deals_of_none rfl
      · exact Worker.deals_of_none rfl
  | ended => exact h

end

-- ============================================================= recoveries

section

variable {p : Recovery}

/-- A recovery that carries nothing, past its first step. -/
theorem Recovery.deals_of_none (h : p.pc.result = none) (hnot : p.pc ≠ .recover) :
    (Party.recovery p).Deals K :=
  ⟨fun result hresult => absurd (h.symm.trans hresult) (by simp),
    fun hpc => absurd hpc hnot⟩

theorem Recovery.advance_deals {db : DbOutcome} {next : RecoveryPc}
    {call : Except GenerationError (GenerationRecord × Store)}
    (hnext : next.result = none ∨ next.result = p.pc.result) (hnot : next ≠ .recover)
    (h : (Party.recovery p).Deals K) :
    (Party.recovery (p.advance db next s call).1).Deals K := by
  unfold Recovery.advance
  split
  · exact Recovery.deals_of_none rfl (by simp)
  · refine ⟨fun result hresult => ?_, fun hpc => absurd hpc hnot⟩
    rcases hnext with hnext | hnext
    · exact absurd (hnext.symm.trans hresult) (by simp)
    · exact h.1 result (hnext.symm.trans hresult)

/-- A step of a recovery. -/
theorem recoveryStep_deals (hstores : (Party.recovery p).Stores K env)
    (h : (Party.recovery p).Deals K) :
    (Party.recovery (recoveryStep cfg env p s).1).Deals K := by
  obtain ⟨record, fence, clock, pc⟩ := p
  cases pc with
  | recover =>
      obtain ⟨htenant, hid⟩ := h.2 rfl
      show (Party.recovery (recoverStep cfg env _)).Deals K
      unfold recoverStep
      split
      · exact Recovery.deals_of_none rfl (by simp)
      · split
        · refine Recovery.deals_of_none ?_ ?_
          · dsimp only
            split
            · rfl
            · rfl
          · dsimp only
            split
            · simp
            · simp
        · exact Recovery.deals_of_none rfl (by simp)
        · next result hresult =>
            refine ⟨fun result' hresult' => ?_, fun hpc => by cases hpc⟩
            obtain rfl := Option.some.inj hresult'
            rw [htenant, hid]
            exact recoverVideo_keys hresult (hstores rfl)
  | resolve pc =>
      refine Recovery.deals_of_none ?_ ?_
      · dsimp only [recoveryStep]
        split
        · rfl
        · rfl
        · rfl
      · dsimp only [recoveryStep]
        split
        · simp
        · simp
        · simp
  | giveBack =>
      dsimp only [recoveryStep]
      split
      · exact Recovery.deals_of_none rfl (by simp)
      · exact Recovery.deals_of_none rfl (by simp)
  | toRunning result => exact Recovery.advance_deals (Or.inr rfl) (by simp) h
  | toStoring result => exact Recovery.advance_deals (Or.inr rfl) (by simp) h
  | complete result => exact Recovery.advance_deals (Or.inl rfl) (by simp) h
  | capture =>
      dsimp only [recoveryStep]
      split
      · exact Recovery.deals_of_none rfl (by simp)
      · split
        · exact Recovery.deals_of_none rfl (by simp)
        · exact Recovery.deals_of_none rfl (by simp)
  | unclaim => exact Recovery.deals_of_none rfl (by simp [recoveryStep])
  | ended => exact h

end

-- ================================================================= acts

/-- Every process of the world deals in keys of its own job. -/
def World.Deals (K : Nat → Nat → String → Prop) (w : World) : Prop :=
  ∀ pid p, w.parties.get pid = some p → p.Deals K

/-- What the storage answers in an act is an artifact of the job it is asked
for. -/
def Act.Stores (K : Nat → Nat → String → Prop) (w : World) : Act → Prop
  | .work pid env => ∀ p, w.parties.get pid = some p → p.Stores K env
  | _ => True

theorem World.Deals.of_eq {w' : World} (h : w.Deals K) (heq : w'.parties = w.parties) :
    w'.Deals K := by
  intro pid p hp
  rw [heq] at hp
  exact h pid p hp

theorem World.Deals.spawn (h : w.Deals K) {p : Party} (hp : p.Deals K) :
    (w.spawn p).Deals K := by
  intro pid q hq
  rcases Table.get_insert_cases hq with ⟨-, rfl⟩ | hq
  · exact hp
  · exact h pid q hq

theorem World.Deals.update (h : w.Deals K) {pid : Nat} {p : Party} (hp : p.Deals K) :
    (w.update pid p).Deals K := by
  intro i q hq
  rcases Table.get_modify_cases hq with ⟨-, -, -, rfl⟩ | ⟨-, hq⟩
  · exact hp
  · exact h i q hq

theorem World.Deals.claim (h : w.Deals K) {db : DbOutcome}
    {x : Except GenerationError (Option GenerationRecord × Store)}
    {start : GenerationRecord → Option Party}
    (hstart : ∀ r p, start r = some p → p.Deals K) : (w.claim db x start).Deals K := by
  unfold World.claim
  split
  · split
    · next r _ _ p hp => exact World.Deals.spawn (h.of_eq rfl) (hstart _ p hp)
    · exact h.of_eq rfl
  · exact h.of_eq rfl

theorem World.Deals.call (h : w.Deals K) {α : Type}
    {x : Except GenerationError (α × Store)} : (w.call x).Deals K := by
  cases x with
  | error e => exact h
  | ok y => exact h.of_eq rfl

/-- A recovery starts with the fence of its record. -/
theorem Recovery.start_deals {record : GenerationRecord} {p : Recovery}
    (h : Recovery.start now record = some p) : (Party.recovery p).Deals K := by
  unfold Recovery.start at h
  split at h
  · cases h
  · obtain rfl := Option.some.inj h
    exact ⟨fun result hresult => absurd hresult (by simp [RecoveryPc.result]),
      fun _ => ⟨rfl, rfl⟩⟩

/-- An act keeps the dealings. -/
theorem worldStep_deals (h : w.Deals K) (hstores : a.Stores K w) :
    (worldStep cfg w a).Deals K := by
  have hworker : ∀ t workerId (r : GenerationRecord),
      (Party.worker (Worker.start t workerId r)).Deals K :=
    fun t workerId r => Worker.deals_of_none rfl
  cases a with
  | accept now catalog tenantId actorUserId request hash => exact h.call
  | cancel now tenantId actorUserId jobId => exact h.call
  | sweep now staleSeconds limit locked => exact h.call
  | claim now db locked tenantId jobId workerId leaseSeconds =>
      refine h.claim fun r p hp => ?_
      obtain rfl := Option.some.inj hp
      exact hworker _ _ _
  | claimNext now db locked tenantId modalities workerId leaseSeconds =>
      refine h.claim fun r p hp => ?_
      obtain rfl := Option.some.inj hp
      exact hworker _ _ _
  | recover now db locked workerId leaseSeconds =>
      refine h.claim fun r p hp => ?_
      obtain ⟨q, hq, rfl⟩ := Option.map_eq_some_iff.mp hp
      exact Recovery.start_deals hq
  | resolve now tenantId jobId subject reason =>
      simp only [worldStep, World.resolve]
      split
      · exact (h.spawn (show Party.Deals K (.operator _) from trivial)).of_eq rfl
      · exact h
  | reconcile now limit =>
      simp only [worldStep]
      split
      · exact h.spawn (show Party.Deals K (.reconciler _) from trivial)
      · exact h
  | renew pid now db =>
      simp only [worldStep]
      split
      · next p _ =>
          cases p with
          | worker p =>
              simp only [World.renew]
              split
              · exact h.of_eq rfl
              · exact h
          | recovery p => exact h
          | operator p => exact h
          | reconciler p => exact h
      · exact h
  | work pid env =>
      simp only [worldStep]
      split
      · next p hp =>
          have hp' := hstores p hp
          have hdeals := h pid p hp
          cases p with
          | worker p =>
              exact ((h.of_eq rfl : (w.write _).Deals K).update
                (workerStep_deals hp' hdeals)).of_eq rfl
          | recovery p =>
              exact ((h.of_eq rfl : (w.write _).Deals K).update
                (recoveryStep_deals hp' hdeals)).of_eq rfl
          | operator p => exact (h.of_eq rfl : (w.write _).Deals K).update trivial
          | reconciler p => exact (h.of_eq rfl : (w.write _).Deals K).update trivial
      · exact h

/-- What a completion inserts has keys of its job. -/
theorem Completes.keys {f : Fence} {result : GenerationExecutionResult}
    (hact : Completes w a now f result) (h : w.Deals K) :
    KeysOf K f.tenantId f.jobId result := by
  cases hact with
  | worker pid env p f result hp hpc hf =>
      obtain ⟨htenant, hid, -⟩ := Worker.fence_ok hf
      rw [htenant, hid]
      exact h pid _ hp result (by rw [hpc]; rfl)
  | recovery pid env p result hp hpc => exact (h pid _ hp).1 result (by rw [hpc]; rfl)

end Mosaic.Generation
