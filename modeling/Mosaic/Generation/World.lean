/-
The generation system: the store, any number of workers, recoveries,
operator resolutions and billing passes over it, and every way they
interleave.

An `Act` is one step of one party: an API call, a run of the stall
sweep, a claim (a delivery, duplicated or not, a poll, or the recovery's)
that starts a process when it gets a job, a renewal by the lease guard
of an executing worker, or the next step of a process.

# Ghosts

Three lists record what happened, and no step reads them:

- `submissions`: each entry of a job's durable row into `submitted`;
- `executions`: each call of `executor.execute`;
- `reports`: the jobs with a definitive negative outcome, that is, the
  submit call was answered with a 4xx other than 408, the provider
  reported the task FAILED or CANCELED, or an operator resolved the job
  as failed.
-/
import Mosaic.Generation.Recovery

namespace Mosaic.Generation

open Lib Providers

-- =============================================================== parties

inductive Party
  | worker (p : Worker)
  | recovery (p : Recovery)
  | operator (p : Operator)
  | reconciler (p : Reconciler)

structure World where
  store : Store
  parties : Table Party
  submissions : List Nat
  executions : List Nat
  reports : List Nat

inductive Act
  | accept (now : Nat) (catalog : Catalog.CatalogRows) (tenantId actorUserId : Nat)
      (request : CreateGenerationRequest) (requestHash : String)
  | cancel (now tenantId actorUserId jobId : Nat)
  | sweep (now staleSeconds limit : Nat) (locked : Nat → Bool)
  | claim (now : Nat) (db : DbOutcome) (locked : Nat → Bool) (tenantId jobId : Nat)
      (workerId : String) (leaseSeconds : Nat)
  | claimNext (now : Nat) (db : DbOutcome) (locked : Nat → Bool) (tenantId : Option Nat)
      (modalities : Option (List Modality)) (workerId : String) (leaseSeconds : Nat)
  | recover (now : Nat) (db : DbOutcome) (locked : Nat → Bool) (workerId : String)
      (leaseSeconds : Nat)
  | resolve (now tenantId jobId : Nat) (subject reason : String)
  | reconcile (now limit : Nat)
  | renew (pid now : Nat) (db : DbOutcome)
  | work (pid : Nat) (env : Env)

-- ================================================================ ghosts

/-- The jobs that are in `submitted` and were not. -/
def entered (s s' : Store) : List Nat :=
  (s'.jobs.entries.filter fun e => e.2.status == .submitted
    && (s.jobs.get e.1).all fun j => j.status != .submitted).map (·.1)

/-- Counters inside `executor.execute`. -/
def WorkerPc.executing : WorkerPc → Bool
  | .execute _ => true
  | .recordTask _ _ => true
  | .poll _ _ _ => true
  | .recordRequest _ => true
  | .store _ => true
  | _ => false

/-- The counter at which `executor.execute` is called. -/
def WorkerPc.calls : WorkerPc → Bool
  | .execute _ => true
  | _ => false

/-- The answer to the submit call, if one came. -/
def answerOf (x : Answers) (call : ProviderCall) : Option Answer :=
  let read := fun {β : Type} (x : Exchange β) => match x with
    | .answered answer _ => some answer
    | _ => none
  match call with
  | .generate _ => read x.image
  | .submitVideo _ => read x.video
  | .synthesize _ => read x.audio
  | .complete _ => read x.text

/-- A 4xx other than 408. -/
def refusal (a : Answer) : Bool :=
  400 ≤ a.status && a.status < 500 && a.status != 408

section

variable (cfg : Config)

/-- The provider reports the task FAILED or CANCELED. -/
def taskOver (x : Exchange VideoTaskResponse) : Bool :=
  match getVideoTask cfg.asset x with
  | .ok r => r.status == .failed || r.status == .canceled
  | .error _ => false

/-- A worker's step brings a definitive negative outcome. -/
def Worker.reports (env : Env) (p : Worker) : Bool :=
  !env.interrupted && match p.pc with
    | .execute ports =>
        match providerCall ports p.record.execution with
        | .ok call => (answerOf env.answers call).any refusal
        | .error _ => false
    | .poll _ _ _ => taskOver cfg env.poll
    | _ => false

/-- And a recovery's. -/
def Recovery.reports (env : Env) (p : Recovery) : Bool :=
  match p.pc with
  | .recover => taskOver cfg env.poll
  | _ => false

end

-- ================================================================ acts

/-- A committed write, and the submissions in it. -/
def World.write (w : World) (s : Store) : World :=
  { w with store := s, submissions := w.submissions ++ entered w.store s }

/-- A process starts. -/
def World.spawn (w : World) (p : Party) : World :=
  { w with parties := w.parties.insert p }

/-- A process steps. -/
def World.update (w : World) (pid : Nat) (p : Party) : World :=
  { w with parties := w.parties.modify pid fun _ => p }

/-- A call without a process of its own. -/
def World.call {α : Type} (w : World) (x : Except GenerationError (α × Store)) : World :=
  match x with
  | .ok y => w.write y.2
  | .error _ => w

/-- A claim, and the process it starts. -/
def World.claim (w : World) (db : DbOutcome)
    (x : Except GenerationError (Option GenerationRecord × Store))
    (start : GenerationRecord → Option Party) : World :=
  match attempt db w.store x with
  | (some (some record), s) =>
      match start record with
      | some p => (w.write s).spawn p
      | none => w.write s
  | (_, s) => w.write s

section

variable (cfg : Config)

/-- The next step of a process. -/
def World.work (w : World) (pid : Nat) (env : Env) : Party → World
  | .worker p =>
      let (p', s) := workerStep cfg env p w.store
      let w' := (w.write s).update pid (.worker p')
      { w' with
        executions :=
          if p.pc.calls then w.executions ++ [p.record.jobId] else w.executions
        reports :=
          if p.reports cfg env then w.reports ++ [p.record.jobId] else w.reports }
  | .recovery p =>
      let (p', s) := recoveryStep cfg env p w.store
      let w' := (w.write s).update pid (.recovery p')
      { w' with reports :=
          if p.reports cfg env then w.reports ++ [p.record.jobId] else w.reports }
  | .operator p =>
      let (p', s) := operatorStep env p w.store
      (w.write s).update pid (.operator p')
  | .reconciler p =>
      let (p', s) := reconcilerStep cfg env p w.store
      (w.write s).update pid (.reconciler p')

/-- A renewal of the lease guard. -/
def World.renew (w : World) (now : Nat) (db : DbOutcome) : Party → World
  | .worker p =>
      if p.pc.executing then
        w.write (attempt db w.store (p.heartbeat now cfg.heartbeatSeconds w.store)).2
      else w
  | _ => w

/-- An operator calls `resolve_failed`. -/
def World.resolve (w : World) (now tenantId jobId : Nat) (subject reason : String) :
    World :=
  match boundedText subject "operator subject" 200, boundedText reason "reason" 500 with
  | .ok subject, .ok reason =>
      let request : ResolveRequest := { tenantId, jobId, subject, reason }
      { w.spawn (.operator { request, clock := now, pc := some .request }) with
        reports := w.reports ++ [jobId] }
  | _, _ => w

/-- One act. -/
def worldStep (w : World) : Act → World
  | .accept now catalog tenantId actorUserId request requestHash =>
      w.call (accept now catalog cfg.book tenantId actorUserId request requestHash w.store)
  | .cancel now tenantId actorUserId jobId =>
      w.call (cancelAccepted now tenantId actorUserId jobId w.store)
  | .sweep now staleSeconds limit locked =>
      w.call (reconcileStalledOnce now staleSeconds limit locked w.store)
  | .claim now db locked tenantId jobId workerId leaseSeconds =>
      w.claim db (claimAccepted now locked tenantId jobId workerId leaseSeconds w.store)
        fun record => some (.worker (Worker.start now workerId record))
  | .claimNext now db locked tenantId modalities workerId leaseSeconds =>
      w.claim db (claimNextAccepted now locked tenantId modalities workerId leaseSeconds
        w.store) fun record => some (.worker (Worker.start now workerId record))
  | .recover now db locked workerId leaseSeconds =>
      w.claim db (claimPendingReconciliation now locked workerId leaseSeconds w.store)
        fun record => (Recovery.start now record).map .recovery
  | .resolve now tenantId jobId subject reason =>
      w.resolve now tenantId jobId subject reason
  | .reconcile now limit =>
      if 1 ≤ limit ∧ limit ≤ 500 then
        w.spawn (.reconciler
          { rows := settlementRows limit w.store, clock := now, pc := .next })
      else w
  | .renew pid now db =>
      match w.parties.get pid with
      | some p => w.renew cfg now db p
      | none => w
  | .work pid env =>
      match w.parties.get pid with
      | some p => w.work cfg pid env p
      | none => w

end

/-- A world nobody has used: no job, no process, and no reservation is a
job's. -/
structure WorldOpening (w : World) : Prop where
  jobs : w.store.jobs = Table.empty
  reservations : ∀ id r, w.store.billing.reservations.get id = some r →
    r.sourceType ≠ "generation"
  parties : w.parties = Table.empty
  submissions : w.submissions = []
  executions : w.executions = []
  reports : w.reports = []

-- =============================================================== sample

/-- A published price: a hold of 500, at least 10, one unit a second. -/
def samplePrice : Billing.PriceSnapshot :=
  { priceVersionId := 0, priceKey := "video", version := 1, currency := "CNY"
    unit := "local_metered_usage"
    pricing :=
      [("schema", .str "local_tariff_v1"), ("currency", .str "CNY"),
       ("rounding", .str "integer_sum"), ("reservation_minor", .int 500),
       ("minimum_charge_minor", .int 10),
       ("components", .obj [("video_seconds", .int 1)])]
    keyNonblank := by decide, versionPos := Billing.firstVersion_pos
    unitNonblank := Billing.meteredUnit_nonblank, code := Billing.isCurrencyCode_cny }

def sampleConfig : Config :=
  { book := fun id => if id = 0 then some samplePrice else none
    heartbeatSeconds := 120, videoTimeout := 600000000, asset := some }

/-- One video product on one deployment, open to tenant 1. -/
def sampleCatalog : Catalog.CatalogRows :=
  { products := ⟨[⟨"wan-video", "Wan", .video, .textToVideo, .active, []⟩]⟩
    entitlements := [⟨1, 0, true, []⟩]
    deployments := ⟨[⟨0, 0, "wan2.7", .active, 0, 4, [], 0⟩]⟩
    endpoints := ⟨[⟨"bailian", .dashscopeAsync, "env:DASHSCOPE_API_KEY", .active⟩]⟩
    revisions := ⟨[⟨0, 1, 1, "", []⟩]⟩
    policies := ⟨[⟨0, 1, true⟩]⟩
    bindings := [⟨0, 0, 0, 0, none⟩]
    prices := [⟨0, 0, 0, none⟩] }

/-- Tenant 1 with a funded wallet. -/
def sampleWorld : World :=
  { store :=
      { jobs := Table.empty, artifacts := Table.empty, idempotency := Table.empty
        outbox := Table.empty, audit := Table.empty
        billing :=
          { wallets := ⟨[⟨1, "CNY", 10000, 0, 1, .active⟩]⟩
            reservations := Table.empty, ledger := Table.empty
            usageRecords := Table.empty }
        nextUuid := 0 }
    parties := Table.empty, submissions := [], executions := [], reports := [] }

theorem sampleWorld_opening : WorldOpening sampleWorld := by
  refine ⟨rfl, ?_, rfl, rfl, rfl, rfl⟩
  intro id r hr
  simp [sampleWorld] at hr

/-- User 2 asks for a video. -/
def sampleAccept : Act :=
  .accept 0 sampleCatalog 1 2
    { productModelId := "wan-video", modality := .video
      input := { prompt := some "a cat" }, clientRequestId := "k1" } "hash"

/-- A delivery claims the first job for a minute. -/
def sampleClaim : Act := .claim 1 .committed (fun _ => false) 1 0 "worker" 60

/-- A task in the given status, with its video. -/
def sampleTask (status : String) : Exchange VideoTaskResponse :=
  let usage : VideoUsageWire := ⟨none, none, false⟩
  .answered ⟨200, {}⟩ (some ⟨status, some "https://x.aliyuncs.com/v.mp4", none, none, usage⟩)

/-- An environment in which everything works. -/
def sampleEnv : Env :=
  let refused := { status := 500, headers := {} }
  { elapsed := 1, db := .committed, admission := .granted, interrupted := false
    ports := some { text := false, image := false, video := true, audio := false
                    providerModelId := some "wan2.7", audioVoice := none }
    answers :=
      { text := .answered refused none, image := .answered refused none
        audio := .answered refused none
        video := .answered { status := 200, headers := {} } (some "task-1") }
    poll := sampleTask "SUCCEEDED"
    storage := fun _ => some ⟨"local", "1/0/v.mp4", "video/mp4", 7, none, none⟩ }

/-- The first process goes on, undisturbed. -/
def sampleWork : Act := .work 0 sampleEnv

end Mosaic.Generation
