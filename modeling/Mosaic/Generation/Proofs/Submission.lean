/-
A generation job is submitted to the provider at most once.

The argument is about the job table alone: `submitted` is entered from
`queued`, no move leads back to `accepted`, `reserved` or `queued`, and
a worker calls the executor right after its own transition into
`submitted` was acknowledged. So a job's entry into `submitted` happens
once, and the executor is called at most once for each entry.
-/
import Mosaic.Generation.Proofs.Acts

namespace Mosaic.Generation

open Lib Providers

variable {cfg : Config} {w w' : World} {s s' : Store} {a : Act} {uuid : Nat}
  {token : Option Nat} {sweep : Bool}

-- ============================================================== entries

theorem mem_entered {id : Nat} :
    id ∈ entered s s' ↔ ∃ j', s'.jobs.get id = some j' ∧ j'.status = .submitted
      ∧ ∀ j, s.jobs.get id = some j → j.status ≠ .submitted := by
  simp only [entered, List.mem_map, List.mem_filter, Table.mem_entries,
    Bool.and_eq_true, beq_iff_eq, Option.all_eq_true, bne_iff_ne, Prod.exists]
  constructor
  · rintro ⟨_, j', ⟨hj', hstatus, hold⟩, rfl⟩
    exact ⟨j', hj', hstatus, hold⟩
  · rintro ⟨j', hj', hstatus, hold⟩
    exact ⟨id, j', ⟨hj', hstatus, hold⟩, rfl⟩

theorem nodup_entered (s s' : Store) : (entered s s').Nodup :=
  (Table.nodup_entries s'.jobs).sublist (List.filter_sublist.map _)

/-- A job that enters `submitted` was queued. -/
theorem JobsStep.entered_queued (h : JobsStep uuid token sweep s.jobs s'.jobs) {id : Nat}
    (hid : id ∈ entered s s') :
    ∃ j, s.jobs.get id = some j ∧ j.status = .queued := by
  obtain ⟨j', hj', hstatus, hnot⟩ := mem_entered.mp hid
  rcases h.new id j' hj' with ⟨j, hj, hmove⟩ | ⟨-, hfresh⟩
  · rcases hmove.submission hstatus with hsame | ⟨hqueued, -⟩
    · exact absurd hsame (hnot j hj)
    · exact ⟨j, hj, hqueued⟩
  · rw [hfresh.status] at hstatus
    cases hstatus

-- ================================================================ calls

theorem Worker.raise_calls (p : Worker) (e : ExecuteError) :
    (p.raise e).pc.calls = false := by
  unfold Worker.raise
  dsimp only
  split
  · rfl
  · split
    · rfl
    · split <;> rfl

/-- A worker comes to call the executor by submitting its job. -/
theorem WorkerMove.calls {env : Env} {p p' : Worker} (h : WorkerMove cfg env p s p' s')
    (hcalls : p'.pc.calls = true) : p'.record.jobId ∈ entered s s' := by
  cases h with
  | goes next hgoes =>
      cases hgoes with
      | along next st hpc hnext hquiet =>
          rw [hquiet] at hcalls
          cases hcalls
      | _ => cases hcalls
  | raised e s' st hpc hwrote =>
      rw [Worker.raise_calls] at hcalls
      cases hcalls
  | kept next s' st hpc hnext hquiet hwrote =>
      rw [hquiet] at hcalls
      cases hcalls
  | turned target next v r s' hturns hok =>
      obtain ⟨f, j, -, hj, -, hstatus, hedge, rfl, rfl⟩ := Worker.transition_ok hok
      generalize hpc : p.pc = pc at hturns
      cases hturns with
      | toSubmitted ports =>
          refine mem_entered.mpr ⟨j.transitioned p.clock .submitted v, ?_, rfl, ?_⟩
          · simp [Store.setJob, hj]
          · intro x hx
            obtain rfl := Option.some.inj (hj.symm.trans hx)
            rw [hstatus, GenerationStatus.submitted_entry hedge]
            exact fun h => by cases h
      | _ => cases hcalls
  | completed result r s' hpc hok => cases hcalls
  | captured result rid s' hpc hrid hcall => cases hcalls
  | failed errorCode release s' hpc hcall =>
      dsimp only at hcalls
      split at hcalls <;> cases hcalls
  | released rid s' hpc hrid hcall => cases hcalls

/-- A worker keeps its job. -/
theorem WorkerMove.jobId {env : Env} {p p' : Worker} (h : WorkerMove cfg env p s p' s') :
    p'.record.jobId = p.record.jobId := by
  cases h with
  | raised e s' st hpc hwrote =>
      unfold Worker.raise
      dsimp only
      split
      · rfl
      · split <;> rfl
  | turned target next v r s' hturns hok =>
      obtain ⟨-, -, -, -, -, -, -, rfl, -⟩ := Worker.transition_ok hok
      rfl
  | completed result r s' hpc hok =>
      obtain ⟨-, -, -, rfl, -, -⟩ := Worker.complete_ok hok
      rfl
  | _ => rfl

-- ============================================================ invariant

/-- The submissions and executor calls of a reachable world. -/
structure OnceInv (w : World) : Prop where
  once : w.submissions.Nodup
  submitted : ∀ id ∈ w.submissions, ∃ j, w.store.jobs.get id = some j
    ∧ j.status.unsubmitted = false
  executedOnce : w.executions.Nodup
  executed : ∀ id ∈ w.executions, id ∈ w.submissions
  calling : ∀ pid p, w.parties.get pid = some (.worker p) → p.pc.calls = true →
    p.record.jobId ∈ w.submissions ∧ p.record.jobId ∉ w.executions
  alone : ∀ pid pid' p p', w.parties.get pid = some (.worker p) → p.pc.calls = true →
    w.parties.get pid' = some (.worker p') → p'.pc.calls = true →
    p.record.jobId = p'.record.jobId → pid = pid'

theorem WorldOpening.onceInv (h : WorldOpening w) : OnceInv w := by
  refine { once := ?_, submitted := ?_, executedOnce := ?_, executed := ?_
           calling := ?_, alone := ?_ }
  · simp [h.submissions]
  · simp [h.submissions]
  · simp [h.executions]
  · simp [h.executions]
  · simp [h.parties]
  · simp [h.parties]

/-- An entry into `submitted` is a first one. -/
theorem OnceInv.entered_fresh (h : OnceInv w)
    (hstep : JobsStep uuid token sweep w.store.jobs s'.jobs) {id : Nat}
    (hid : id ∈ entered w.store s') : id ∉ w.submissions := by
  intro hmem
  obtain ⟨j, hj, hqueued⟩ := hstep.entered_queued hid
  obtain ⟨j', hj', hstatus⟩ := h.submitted id hmem
  obtain rfl := Option.some.inj (hj.symm.trans hj')
  rw [hqueued] at hstatus
  cases hstatus

/-- The submissions after an act. -/
theorem OnceInv.submissions (h : OnceInv w) (w' : World)
    (hstep : JobsStep uuid token sweep w.store.jobs w'.store.jobs)
    (hsub : w'.submissions = w.submissions ++ entered w.store w'.store) :
    w'.submissions.Nodup ∧ ∀ id ∈ w'.submissions, ∃ j, w'.store.jobs.get id = some j
      ∧ j.status.unsubmitted = false := by
  rw [hsub]
  constructor
  · rw [List.nodup_append']
    exact ⟨h.once, nodup_entered _ _, fun id hid hin => h.entered_fresh hstep hin hid⟩
  · intro id hid
    rcases List.mem_append.mp hid with hid | hid
    · obtain ⟨j, hj, hstatus⟩ := h.submitted id hid
      obtain ⟨j', hj', hmove⟩ := hstep.old id j hj
      refine ⟨j', hj', ?_⟩
      by_contra hback
      rw [Bool.not_eq_false] at hback
      rw [hmove.unsubmitted hback] at hstatus
      cases hstatus
    · obtain ⟨j', hj', hstatus, -⟩ := mem_entered.mp hid
      exact ⟨j', hj', by rw [hstatus]; rfl⟩

/-- Acts that start no executor call. -/
theorem OnceInv.quiet (h : OnceInv w)
    (hstep : JobsStep uuid token sweep w.store.jobs w'.store.jobs)
    (hsub : w'.submissions = w.submissions ++ entered w.store w'.store)
    (hexec : w'.executions = w.executions)
    (hparties : ∀ pid p, w'.parties.get pid = some (.worker p) → p.pc.calls = true →
      w.parties.get pid = some (.worker p)) : OnceInv w' := by
  obtain ⟨honce, hsubmitted⟩ := h.submissions _ hstep hsub
  have hgrows : ∀ id ∈ w.submissions, id ∈ w'.submissions := by
    intro id hid
    rw [hsub]
    exact List.mem_append_left _ hid
  refine { once := honce, submitted := hsubmitted, executedOnce := ?_, executed := ?_
           calling := ?_, alone := ?_ }
  · rw [hexec]
    exact h.executedOnce
  · intro id hid
    rw [hexec] at hid
    exact hgrows id (h.executed id hid)
  · intro pid p hp hcalls
    obtain ⟨hin, hnot⟩ := h.calling pid p (hparties pid p hp hcalls) hcalls
    exact ⟨hgrows _ hin, by rwa [hexec]⟩
  · intro pid pid' p p' hp hc hp' hc' hsame
    exact h.alone pid pid' p p' (hparties pid p hp hc) hc (hparties pid' p' hp' hc') hc'
      hsame

/-- A process table after a process started. -/
theorem World.spawn_cases {pid : Nat} {p q : Party}
    (h : (w.spawn p).parties.get pid = some q) :
    (pid = w.parties.nextId ∧ q = p) ∨ w.parties.get pid = some q :=
  Table.get_insert_cases h

/-- And after one stepped. -/
theorem World.update_cases {pid i : Nat} {p q : Party}
    (h : (w.update pid p).parties.get i = some q) :
    (i = pid ∧ q = p) ∨ (i ≠ pid ∧ w.parties.get i = some q) := by
  rcases Table.get_modify_cases h with ⟨rfl, -, -, rfl⟩ | h
  · exact Or.inl ⟨rfl, rfl⟩
  · exact Or.inr h

/-- A step of a worker. -/
theorem OnceInv.worked (h : OnceInv w) {pid : Nat} {env : Env} {p p' : Worker}
    (hp : w.parties.get pid = some (.worker p))
    (hmove : WorkerMove cfg env (p.tick env) w.store p' s') :
    OnceInv (w.worked cfg pid env p p' s') := by
  have hjob : p'.record.jobId = p.record.jobId := hmove.jobId
  have hstep : JobsStep w.store.nextUuid p.token false w.store.jobs s'.jobs := hmove.step.1
  obtain ⟨honce, hsubmitted⟩ :=
    h.submissions (w.worked cfg pid env p p' s') hstep rfl
  have hgrows : ∀ id ∈ w.submissions, id ∈ (w.worked cfg pid env p p' s').submissions :=
    fun id hid => List.mem_append_left _ hid
  -- a call that starts is a submission of this very step
  have hfresh : p'.pc.calls = true → p.record.jobId ∈ entered w.store s'
      ∧ p.record.jobId ∉ w.submissions := by
    intro hcalls
    have hin := hjob ▸ hmove.calls hcalls
    exact ⟨hin, h.entered_fresh hstep hin⟩
  have hexecuted : ∀ id, id ∈ (w.worked cfg pid env p p' s').executions →
      id ∈ w.executions ∨ (p.pc.calls = true ∧ id = p.record.jobId) := by
    intro id hid
    simp only [World.worked] at hid
    split at hid
    · next hcalls =>
        rcases List.mem_append.mp hid with hid | hid
        · exact Or.inl hid
        · exact Or.inr ⟨hcalls, List.mem_singleton.mp hid⟩
    · exact Or.inl hid
  refine { once := honce, submitted := hsubmitted, executedOnce := ?_, executed := ?_
           calling := ?_, alone := ?_ }
  · simp only [World.worked]
    split
    · next hcalls =>
        rw [List.nodup_append']
        refine ⟨h.executedOnce, List.nodup_singleton _, ?_⟩
        intro id hid hmem
        rw [List.mem_singleton.mp hmem] at hid
        exact (h.calling pid p hp hcalls).2 hid
    · exact h.executedOnce
  · intro id hid
    rcases hexecuted id hid with hid | ⟨hcalls, rfl⟩
    · exact hgrows id (h.executed id hid)
    · exact hgrows _ (h.calling pid p hp hcalls).1
  · intro i q hq hcalls
    rcases World.update_cases (w := w.write s') hq with ⟨rfl, heq⟩ | ⟨hne, hq⟩
    · obtain rfl := Party.worker.inj heq
      obtain ⟨hin, hnot⟩ := hfresh hcalls
      rw [hjob]
      refine ⟨List.mem_append_right _ hin, fun hid => ?_⟩
      rcases hexecuted _ hid with hid | ⟨hc, -⟩
      · exact hnot (h.executed _ hid)
      · exact hnot (h.calling i p hp hc).1
    · obtain ⟨hin, hnot⟩ := h.calling i q hq hcalls
      refine ⟨hgrows _ hin, fun hid => ?_⟩
      rcases hexecuted _ hid with hid | ⟨hc, hsame⟩
      · exact hnot hid
      · exact hne (h.alone i pid q p hq hcalls hp hc hsame)
  · intro i i' q q' hq hc hq' hc' hsame
    rcases World.update_cases (w := w.write s') hq with ⟨rfl, heq⟩ | ⟨hne, hold⟩ <;>
      rcases World.update_cases (w := w.write s') hq' with ⟨rfl, heq'⟩ | ⟨hne', hold'⟩
    · rfl
    · obtain rfl := Party.worker.inj heq
      refine absurd (h.calling i' q' hold' hc').1 ?_
      rw [← hsame, hjob]
      exact (hfresh hc).2
    · obtain rfl := Party.worker.inj heq'
      refine absurd (h.calling i q hold hc).1 ?_
      rw [hsame, hjob]
      exact (hfresh hc').2
    · exact h.alone i i' q q' hold hc hold' hc' hsame

theorem OnceInv.step (h : OnceInv w) (hmove : WorldMove cfg w a w') : OnceInv w' := by
  obtain ⟨token, hstep⟩ := hmove.step
  have hsub := hmove.submissions
  cases hmove with
  | worked pid env p p' s' hp hmove => exact h.worked hp hmove
  | idle => exact h
  | accepted => exact h.quiet hstep hsub rfl fun _ _ hp _ => hp
  | cancelled => exact h.quiet hstep hsub rfl fun _ _ hp _ => hp
  | swept => exact h.quiet hstep hsub rfl fun _ _ hp _ => hp
  | claimLost => exact h.quiet hstep hsub rfl fun _ _ hp _ => hp
  | renewed => exact h.quiet hstep hsub rfl fun _ _ hp _ => hp
  | claimed _ now workerId r j s' hact htaken =>
      refine h.quiet hstep hsub rfl fun pid q hq hc => ?_
      rcases World.spawn_cases (w := w.write s') hq with ⟨-, heq⟩ | hq
      · obtain rfl := Party.worker.inj heq
        cases hc
      · exact hq
  | reclaimed _ now r j s' p hact htaken hp =>
      refine h.quiet hstep hsub rfl fun pid q hq hc => ?_
      rcases World.spawn_cases (w := w.write s') hq with ⟨-, heq⟩ | hq
      · cases heq
      · exact hq
  | asked now tenantId jobId subject reason q hq =>
      refine h.quiet hstep hsub rfl fun pid q hq hc => ?_
      rcases World.spawn_cases hq with ⟨-, heq⟩ | hq
      · cases heq
      · exact hq
  | passed now limit =>
      refine h.quiet hstep hsub rfl fun pid q hq hc => ?_
      rcases World.spawn_cases hq with ⟨-, heq⟩ | hq
      · cases heq
      · exact hq
  | recovered pid env p p' s' hp hmove =>
      refine h.quiet hstep hsub rfl fun i q hq hc => ?_
      rcases World.update_cases (w := w.write s') hq with ⟨-, heq⟩ | ⟨-, hq⟩
      · cases heq
      · exact hq
  | operated pid env p pc outcome s' hp hpc hmove =>
      refine h.quiet hstep hsub rfl fun i q hq hc => ?_
      rcases World.update_cases (w := w.write s') hq with ⟨-, heq⟩ | ⟨-, hq⟩
      · cases heq
      · exact hq
  | rested pid env p hp hpc =>
      refine h.quiet hstep hsub rfl fun i q hq hc => ?_
      rcases World.update_cases (w := w.write w.store) hq with ⟨-, heq⟩ | ⟨-, hq⟩
      · cases heq
      · exact hq
  | reconciled pid env p p' s' hp hmove =>
      refine h.quiet hstep hsub rfl fun i q hq hc => ?_
      rcases World.update_cases (w := w.write s') hq with ⟨-, heq⟩ | ⟨-, hq⟩
      · cases heq
      · exact hq

theorem onceInv_run (cfg : Config) (h : WorldOpening w) (as : List Act) :
    OnceInv (run (worldStep cfg) w as) :=
  run_invariant (fun w a hw => hw.step (worldStep_cases cfg w a)) h.onceInv as

-- ============================================================== the law

/-- In every run a job enters `submitted` at most once, the executor is
called at most once for it, and a submitted job never returns to
`accepted`, `reserved` or `queued`. -/
theorem submitted_at_most_once {cfg : Config} {w : World} (h : WorldOpening w)
    (as : List Act) (id : Nat) :
    (run (worldStep cfg) w as).submissions.count id ≤ 1
      ∧ (run (worldStep cfg) w as).executions.count id ≤ 1
      ∧ (id ∈ (run (worldStep cfg) w as).submissions → ∀ bs j,
          (run (worldStep cfg) w (as ++ bs)).store.jobs.get id = some j →
          j.status ≠ .accepted ∧ j.status ≠ .reserved ∧ j.status ≠ .queued) := by
  have hinv := onceInv_run cfg h as
  refine ⟨List.nodup_iff_count_le_one.mp hinv.once id,
    List.nodup_iff_count_le_one.mp hinv.executedOnce id, ?_⟩
  intro hid bs j hj
  have hkept : ∀ (w : World) (a : Act), id ∈ w.submissions →
      id ∈ (worldStep cfg w a).submissions := by
    intro w a hw
    rw [(worldStep_cases cfg w a).submissions]
    exact List.mem_append_left _ hw
  have hlater : id ∈ (run (worldStep cfg) w (as ++ bs)).submissions := by
    rw [run_append]
    exact run_invariant hkept hid bs
  obtain ⟨j', hj', hstatus⟩ := (onceInv_run cfg h (as ++ bs)).submitted id hlater
  obtain rfl := Option.some.inj (hj.symm.trans hj')
  refine ⟨?_, ?_, ?_⟩ <;> intro heq <;> rw [heq] at hstatus <;> cases hstatus

theorem submitted_at_most_once_sample :
    0 ∈ (run (worldStep sampleConfig) sampleWorld
        ([sampleAccept, sampleClaim] ++ List.replicate 16 sampleWork)).submissions
      ∧ (run (worldStep sampleConfig) sampleWorld
        ([sampleAccept, sampleClaim] ++ List.replicate 16 sampleWork)).submissions.count 0
        ≤ 1 :=
  ⟨by decide +kernel, (submitted_at_most_once sampleWorld_opening _ 0).1⟩

end Mosaic.Generation
