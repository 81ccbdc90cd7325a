/-
What the cleanup deletes.

# One row

`Evolves` is all that ever happens to an artifact: it keeps its tenant and
its job; once it is neither pending nor ready it is never again; its key
stays until it is deleted, and deleted it remains. Every step respects
this (`depotStep_evolves`), so any claim a pass holds, however stale, is
of a row whose object was given up for good (`Cleaner.Stands`).

# Whole depot

`Shelved` ties rows to jobs: an artifact is pending or ready exactly while
its job is not deleted, and a deleted job is terminal, so no completion
adds to it. What a delete removes is hence the object of a deleted job.
No key leads into another job (`ScopedKey.scope`), so nothing of a job
that is still there is removed.
-/
import Mosaic.Generation.Cleaners
import Mosaic.Generation.Proofs.Artifacts
import Mosaic.Generation.Proofs.Keys

namespace Mosaic.Generation

open Lib

variable {cfg : Config} {naming : Naming} {w w' : Depot} {s s' : Store} {now id : Nat}
  {K : Nat → Nat → String → Prop} {a a' : GenerationArtifact} {c : ArtifactDeletionClaim}

-- ================================================================== rows

/-- Pending or ready. -/
def ArtifactStatus.live : ArtifactStatus → Bool
  | .pending => true
  | .ready => true
  | _ => false

/-- What happens to an artifact. -/
structure Evolves (a a' : GenerationArtifact) : Prop where
  tenantId : a'.tenantId = a.tenantId
  generationJobId : a'.generationJobId = a.generationJobId
  live : a'.status.live = true → a.status.live = true
  key : a'.status ≠ .deleted → a.status ≠ .deleted ∧ a'.stored.objectKey = a.stored.objectKey

theorem Evolves.refl (a : GenerationArtifact) : Evolves a a :=
  ⟨rfl, rfl, fun h => h, fun h => ⟨h, rfl⟩⟩

theorem Evolves.trans {a₁ a₂ a₃ : GenerationArtifact} (h : Evolves a₁ a₂)
    (h' : Evolves a₂ a₃) : Evolves a₁ a₃ where
  tenantId := h'.tenantId.trans h.tenantId
  generationJobId := h'.generationJobId.trans h.generationJobId
  live hlive := h.live (h'.live hlive)
  key hkey := by
    obtain ⟨h₂, heq⟩ := h'.key hkey
    obtain ⟨h₁, heq'⟩ := h.key h₂
    exact ⟨h₁, heq.trans heq'⟩

/-- Every row of a table is there later, evolved. -/
def Grows (t t' : Table GenerationArtifact) : Prop :=
  ∀ id a, t.get id = some a → ∃ a', t'.get id = some a' ∧ Evolves a a'

theorem Grows.refl (t : Table GenerationArtifact) : Grows t t :=
  fun _ a ha => ⟨a, ha, .refl a⟩

theorem Grows.trans {t₁ t₂ t₃ : Table GenerationArtifact} (h : Grows t₁ t₂)
    (h' : Grows t₂ t₃) : Grows t₁ t₃ := by
  intro id a ha
  obtain ⟨a₂, ha₂, hev⟩ := h id a ha
  obtain ⟨a₃, ha₃, hev'⟩ := h' id a₂ ha₂
  exact ⟨a₃, ha₃, hev.trans hev'⟩

/-- One row is rewritten. -/
theorem Grows.modify {t : Table GenerationArtifact}
    {f : GenerationArtifact → GenerationArtifact}
    (h : ∀ a, t.get id = some a → Evolves a (f a)) : Grows t (t.modify id f) := by
  intro i a ha
  rw [Table.get_modify]
  split
  · next heq =>
      subst heq
      exact ⟨f a, by rw [ha]; rfl, h a ha⟩
  · exact ⟨a, ha, .refl a⟩

theorem Grows.foldl_insert {t : Table GenerationArtifact} (rows : List GenerationArtifact) :
    Grows t (rows.foldl Table.insert t) := by
  induction rows generalizing t with
  | nil => exact .refl t
  | cons r rows ih =>
      exact Grows.trans (fun _ a ha => ⟨a, Table.get_insert_of_some ha r, .refl a⟩) ih

-- ============================================================ operations

/-- The row a claim takes. -/
structure Deletable (now : Nat) (updatedAt : Nat → Nat) (s : Store) (id : Nat)
    (a : GenerationArtifact) : Prop where
  get : s.artifacts.get id = some a
  live : a.status.live = false
  kept : a.status ≠ .deleted

theorem claimDeletion_some {updatedAt : Nat → Nat} {locked : Nat → Bool}
    (h : claimDeletion now updatedAt locked s = (some c, s')) :
    ∃ a, Deletable now updatedAt s c.artifactId a ∧ c.tenantId = a.tenantId
      ∧ c.jobId = a.generationJobId ∧ c.objectKey = a.stored.objectKey
      ∧ s' = { s with artifacts := s.artifacts.modify c.artifactId fun a =>
          { a with status := .deletePending } } := by
  unfold claimDeletion at h
  split at h
  · cases h
  · next id a hhead =>
      obtain ⟨hc, rfl⟩ := Prod.mk.inj h
      obtain rfl := Option.some.inj hc
      have hmem := Table.mem_ordered.mp (List.mem_of_mem_head? (Option.mem_def.mpr hhead))
      obtain ⟨hget, hwhere⟩ := hmem
      simp only [deletable, Bool.and_eq_true, Bool.or_eq_true, beq_iff_eq] at hwhere
      have hstatus : a.status = .expired ∨ a.status = .deletePending := by
        rcases hwhere.1.2 with ⟨h, -⟩ | ⟨h, -⟩
        · exact Or.inl h
        · exact Or.inr h
      refine ⟨a, ⟨hget, ?_, ?_⟩, rfl, rfl, rfl, rfl⟩
      · rcases hstatus with h | h <;> rw [h] <;> rfl
      · rcases hstatus with h | h <;> rw [h] <;> decide

theorem claim_row {a : GenerationArtifact} (h : c.row s = some a) :
    s.artifacts.get c.artifactId = some a ∧ a.status = .deletePending := by
  unfold ArtifactDeletionClaim.row at h
  obtain ⟨hget, hcheck⟩ := Option.filter_eq_some_iff.mp h
  simp only [Bool.and_eq_true, beq_iff_eq] at hcheck
  exact ⟨hget, hcheck.2⟩

/-- What `_complete` writes. -/
theorem completeDeletion_ok {u : Unit} (h : completeDeletion now c s = .ok (u, s')) :
    ∃ a, s.artifacts.get c.artifactId = some a ∧ a.status = .deletePending
      ∧ s' = { s with artifacts := s.artifacts.modify c.artifactId fun a =>
          { a with
            status := .deleted
            stored := { a.stored with
              objectKey := "deleted/" ++ toString c.artifactId, sizeBytes := 0
              sha256 := none, expiresAt := some now } } } := by
  simp only [completeDeletion, bind_eq_ok, orRaise_eq_ok, pure_eq_ok, Prod.mk.injEq] at h
  obtain ⟨a, ha, -, rfl⟩ := h
  obtain ⟨hget, hstatus⟩ := claim_row ha
  exact ⟨a, hget, hstatus, rfl⟩

/-- What a soft delete makes of an artifact. -/
def GenerationArtifact.takenOff (now tenantId jobId : Nat) (a : GenerationArtifact) :
    GenerationArtifact :=
  if a.tenantId = tenantId ∧ a.generationJobId = jobId
      ∧ (a.status = .pending ∨ a.status = .ready) then
    { a with status := .expired, stored := { a.stored with expiresAt := some now } }
  else a

/-- And what it writes: its job, and the artifacts of its job. -/
theorem softDelete_ok {tenantId actorUserId jobId : Nat} {u : Unit}
    (h : softDelete now tenantId actorUserId jobId s = .ok (u, s')) :
    s' = s ∨ ∃ j, s.jobs.get jobId = some j ∧ j.tenantId = tenantId
      ∧ j.status.isTerminal = true
      ∧ s'.jobs = (s.setJob jobId { j with deletedAt := some now, updatedAt := now }).jobs
      ∧ s'.artifacts = s.artifacts.update (·.takenOff now tenantId jobId) := by
  simp only [softDelete, bind_eq_ok, orRaise_eq_ok, Option.filter_eq_some_iff,
    Bool.and_eq_true, beq_iff_eq] at h
  obtain ⟨j, ⟨hj, htenant, -⟩, h⟩ := h
  split at h
  · obtain ⟨-, rfl⟩ := Prod.mk.inj (pure_eq_ok.mp h)
    exact Or.inl rfl
  · simp only [bind_eq_ok, raiseIf_eq_ok, pure_eq_ok, Prod.mk.injEq] at h
    obtain ⟨_, hterminal, -, rfl⟩ := h
    exact Or.inr ⟨j, hj, htenant, by simpa using hterminal, rfl, rfl⟩

-- ============================================================ invariants

/-- Rows and jobs agree. -/
structure Shelved (K : Nat → Nat → String → Prop) (s : Store) : Prop where
  placed : ∀ id a, s.artifacts.get id = some a →
    ∃ j, s.jobs.get a.generationJobId = some j ∧ j.tenantId = a.tenantId
      ∧ (a.status.live = true ↔ j.deletedAt = none)
  closed : ∀ id j, s.jobs.get id = some j → j.deletedAt ≠ none →
    j.status.isTerminal = true
  keyed : ∀ id a, s.artifacts.get id = some a → a.status ≠ .deleted →
    K a.tenantId a.generationJobId a.stored.objectKey

/-- A row that is not live is rewritten into another such row. -/
theorem Shelved.modify (h : Shelved K s) {f : GenerationArtifact → GenerationArtifact}
    (hrow : ∀ a, s.artifacts.get id = some a →
      Evolves a (f a) ∧ a.status.live = false ∧ (f a).status.live = false) :
    Shelved K { s with artifacts := s.artifacts.modify id f } := by
  refine ⟨fun i a' ha' => ?_, h.closed, fun i a' ha' hstatus => ?_⟩
  · rcases Table.get_modify_cases ha' with ⟨rfl, a, ha, rfl⟩ | ⟨-, ha'⟩
    · obtain ⟨hev, hlive, hlive'⟩ := hrow a ha
      obtain ⟨j, hj, htenant, hiff⟩ := h.placed i a ha
      refine ⟨j, by rw [hev.generationJobId]; exact hj, htenant.trans hev.tenantId.symm, ?_⟩
      rw [hlive'] at *
      rw [hlive] at hiff
      exact hiff
    · exact h.placed i a' ha'
  · rcases Table.get_modify_cases ha' with ⟨rfl, a, ha, rfl⟩ | ⟨-, ha'⟩
    · obtain ⟨hev, -, -⟩ := hrow a ha
      obtain ⟨hold, hkey⟩ := hev.key hstatus
      rw [hev.tenantId, hev.generationJobId, hkey]
      exact h.keyed i a ha hold
    · exact h.keyed i a' ha' hstatus

theorem JobMove.deletedAt {uuid : Nat} {token : Option Nat} {sweep : Bool}
    {j j' : GenerationJob} (h : JobMove uuid token sweep j j') :
    j'.deletedAt = j.deletedAt := by
  cases h with
  | stalled now hsweep hstatus =>
      unfold GenerationJob.stalled
      split <;> rfl
  | _ => rfl

/-- What an act does to the rows. -/
theorem worldStep_grows (cfg : Config) (w : World) (a : Act) :
    Grows w.store.artifacts (worldStep cfg w a).store.artifacts := by
  rcases worldStep_artifacts cfg w a with heq | ⟨now, f, result, r, s', -, hok, heq⟩
  · rw [heq]
    exact .refl _
  · obtain ⟨j, -, -, -, -, hrows⟩ := complete_artifacts hok
    rw [heq, hrows]
    exact .foldl_insert _

/-- The job of a row is there after an act, deleted or not as before. -/
theorem worldStep_job (cfg : Config) {w : World} (a : Act) {j : GenerationJob}
    (hj : w.store.jobs.get id = some j) :
    ∃ j', (worldStep cfg w a).store.jobs.get id = some j' ∧ j'.tenantId = j.tenantId
      ∧ j'.deletedAt = j.deletedAt := by
  obtain ⟨token, hjobs⟩ := (worldStep_cases cfg w a).step
  obtain ⟨j', hj', hmove⟩ := hjobs.old id j hj
  exact ⟨j', hj', hmove.frame.1, hmove.deletedAt⟩

/-- A row of the table after inserts. -/
theorem get_foldl_insert_cases {t : Table GenerationArtifact} {rows : List GenerationArtifact}
    (h : (rows.foldl Table.insert t).get id = some a) : a ∈ rows ∨ t.get id = some a := by
  induction rows generalizing t with
  | nil => exact Or.inr h
  | cons r rows ih =>
      rcases ih h with hmem | hget
      · exact Or.inl (List.mem_cons_of_mem r hmem)
      · rcases Table.get_insert_cases hget with ⟨-, rfl⟩ | hget
        · exact Or.inl List.mem_cons_self
        · exact Or.inr hget

/-- An act of the generation system keeps rows and jobs in order. -/
theorem worldStep_shelved {w : World} {b : Act} (h : Shelved K w.store) (hdeals : w.Deals K) :
    Shelved K (worldStep cfg w b).store := by
  have hclosed : ∀ id j, (worldStep cfg w b).store.jobs.get id = some j →
      j.deletedAt ≠ none → j.status.isTerminal = true := by
    intro id j' hj' hdeleted
    obtain ⟨token, hjobs⟩ := (worldStep_cases cfg w b).step
    rcases hjobs.new id j' hj' with ⟨j, hj, hmove⟩ | ⟨-, hfresh⟩
    · rw [hmove.deletedAt] at hdeleted
      have hterminal := h.closed id j hj hdeleted
      rw [hmove.terminal hterminal]
      exact hterminal
    · exact absurd hfresh.deletedAt hdeleted
  -- what was in the table stays placed
  have hplaced : ∀ id a, w.store.artifacts.get id = some a →
      ∃ j, (worldStep cfg w b).store.jobs.get a.generationJobId = some j
        ∧ j.tenantId = a.tenantId ∧ (a.status.live = true ↔ j.deletedAt = none) := by
    intro id a ha
    obtain ⟨j, hj, htenant, hiff⟩ := h.placed id a ha
    obtain ⟨j', hj', htenant', hdeleted⟩ := worldStep_job cfg b hj
    exact ⟨j', hj', htenant'.trans htenant, by rw [hdeleted]; exact hiff⟩
  rcases worldStep_artifacts cfg w b with heq | ⟨now, f, result, r, s', hact, hok, heq⟩
  · refine ⟨fun id a ha => ?_, hclosed, fun id a ha => ?_⟩
    · rw [heq] at ha
      exact hplaced id a ha
    · rw [heq] at ha
      exact h.keyed id a ha
  · obtain ⟨j, hj, htenant, hstatus, -, hrows⟩ := complete_artifacts hok
    have hnew : ∀ id a, (worldStep cfg w b).store.artifacts.get id = some a →
        (∃ item ∈ result.artifacts, a = readyRow f.tenantId f.jobId item)
          ∨ w.store.artifacts.get id = some a := by
      intro id a ha
      rw [heq, hrows] at ha
      rcases get_foldl_insert_cases ha with hmem | ha
      · obtain ⟨item, hitem, rfl⟩ := List.mem_map.mp hmem
        exact Or.inl ⟨item, hitem, rfl⟩
      · exact Or.inr ha
    refine ⟨fun id a ha => ?_, hclosed, fun id a ha hstatus => ?_⟩
    · rcases hnew id a ha with ⟨item, hitem, rfl⟩ | ha
      · -- a job that is storing is not terminal, hence not deleted
        have hkept : j.deletedAt = none := by
          by_contra hdeleted
          have := h.closed f.jobId j hj hdeleted
          rw [hstatus] at this
          cases this
        obtain ⟨j', hj', htenant', hdeleted⟩ := worldStep_job cfg b hj
        refine ⟨j', hj', htenant'.trans htenant, fun _ => hdeleted.trans hkept, fun _ => rfl⟩
      · exact hplaced id a ha
    · rcases hnew id a ha with ⟨item, hitem, rfl⟩ | ha
      · exact hact.keys hdeals item hitem
      · exact h.keyed id a ha hstatus

theorem ArtifactStatus.live_iff {status : ArtifactStatus} :
    status.live = true ↔ status = .pending ∨ status = .ready := by
  cases status with
  | pending => simp [live]
  | ready => simp [live]
  | _ => simp [live]

theorem takenOff_evolves (now tenantId jobId : Nat) (a : GenerationArtifact) :
    Evolves a (a.takenOff now tenantId jobId) := by
  unfold GenerationArtifact.takenOff
  split
  · next hwhere =>
      refine ⟨rfl, rfl, fun h => absurd h (by simp [ArtifactStatus.live]), fun _ => ⟨?_, rfl⟩⟩
      rcases hwhere.2.2 with h | h
      · rw [h]
        decide
      · rw [h]
        decide
  · exact .refl a

/-- Of its own job, none stays. -/
theorem takenOff_live {tenantId jobId : Nat} (htenant : a.tenantId = tenantId)
    (hjob : a.generationJobId = jobId) : (a.takenOff now tenantId jobId).status.live = false := by
  unfold GenerationArtifact.takenOff
  split
  · rfl
  · next hnot =>
      by_contra hlive
      have hstatus := ArtifactStatus.live_iff.mp ((Bool.not_eq_false _).mp hlive)
      exact hnot ⟨htenant, hjob, hstatus⟩

/-- The others do. -/
theorem takenOff_other {tenantId jobId : Nat} (h : a.generationJobId ≠ jobId) :
    a.takenOff now tenantId jobId = a := by
  unfold GenerationArtifact.takenOff
  rw [if_neg fun hwhere => h hwhere.2.1]

theorem softDelete_grows {tenantId actorUserId jobId : Nat} {u : Unit}
    (hok : softDelete now tenantId actorUserId jobId s = .ok (u, s')) :
    Grows s.artifacts s'.artifacts := by
  rcases softDelete_ok hok with rfl | ⟨j, -, -, -, -, hrows⟩
  · exact .refl _
  · intro id a ha
    rw [hrows, Table.get_update, ha]
    exact ⟨_, rfl, takenOff_evolves now tenantId jobId a⟩

/-- A soft delete takes the artifacts of its job off the shelf. -/
theorem softDelete_shelved {tenantId actorUserId jobId : Nat} {u : Unit} (h : Shelved K s)
    (hok : softDelete now tenantId actorUserId jobId s = .ok (u, s')) : Shelved K s' := by
  rcases softDelete_ok hok with rfl | ⟨j, hj, htenant, hterminal, hjobs, hrows⟩
  · exact h
  · have hold : ∀ id a', s'.artifacts.get id = some a' →
        ∃ a, s.artifacts.get id = some a ∧ a' = a.takenOff now tenantId jobId := by
      intro id a' ha'
      rw [hrows, Table.get_update] at ha'
      obtain ⟨a, ha, heq⟩ := Option.map_eq_some_iff.mp ha'
      exact ⟨a, ha, heq.symm⟩
    refine ⟨fun id a' ha' => ?_, fun id j' hj' hdeleted => ?_, fun id a' ha' hstatus => ?_⟩
    · obtain ⟨a, ha, rfl⟩ := hold id a' ha'
      obtain ⟨i, hi, hitenant, hiff⟩ := h.placed id a ha
      have hev := takenOff_evolves now tenantId jobId a
      rw [hev.generationJobId, hev.tenantId, hjobs, Store.setJob]
      by_cases hsame : a.generationJobId = jobId
      · rw [hsame] at hi ⊢
        obtain rfl := Option.some.inj (hj.symm.trans hi)
        refine ⟨{ j with deletedAt := some now, updatedAt := now },
          by rw [Table.get_modify_self, hj]; rfl, hitenant, ?_⟩
        simp [takenOff_live (hitenant.symm.trans htenant) hsame]
      · refine ⟨i, by rw [Table.get_modify_ne _ (Ne.symm hsame)]; exact hi, hitenant, ?_⟩
        rw [takenOff_other hsame]
        exact hiff
    · rw [hjobs, Store.setJob] at hj'
      rcases Table.get_modify_cases hj' with ⟨-, -, -, rfl⟩ | ⟨-, hj'⟩
      · exact hterminal
      · exact h.closed id j' hj' hdeleted
    · obtain ⟨a, ha, rfl⟩ := hold id a' ha'
      have hev := takenOff_evolves now tenantId jobId a
      obtain ⟨hkeep, hkey⟩ := hev.key hstatus
      rw [hev.tenantId, hev.generationJobId, hkey]
      exact h.keyed id a ha hkeep

-- ============================================================ the cleanup

/-- A write of the cleanup: one row that is not live, as `f` has it. -/
structure Tends (s s' : Store) (id : Nat) : Prop where
  row : ∃ f : GenerationArtifact → GenerationArtifact,
    (∀ a, s.artifacts.get id = some a →
      Evolves a (f a) ∧ a.status.live = false ∧ (f a).status.live = false)
    ∧ s' = { s with artifacts := s.artifacts.modify id f }

theorem Tends.shelved (h : Tends s s' id) (hs : Shelved K s) : Shelved K s' := by
  obtain ⟨f, hrow, rfl⟩ := h.row
  exact hs.modify hrow

theorem Tends.grows (h : Tends s s' id) : Grows s.artifacts s'.artifacts := by
  obtain ⟨f, hrow, rfl⟩ := h.row
  exact .modify fun a ha => (hrow a ha).1

theorem claimDeletion_tends {updatedAt : Nat → Nat} {locked : Nat → Bool}
    (h : claimDeletion now updatedAt locked s = (some c, s')) : Tends s s' c.artifactId := by
  obtain ⟨a, hrow, -, -, -, heq⟩ := claimDeletion_some h
  refine ⟨_, fun a' ha' => ?_, heq⟩
  obtain rfl := Option.some.inj (hrow.get.symm.trans ha')
  exact ⟨⟨rfl, rfl, fun h => absurd h (by simp [ArtifactStatus.live]),
    fun _ => ⟨hrow.kept, rfl⟩⟩, hrow.live, rfl⟩

theorem completeDeletion_tends {u : Unit} (h : completeDeletion now c s = .ok (u, s')) :
    Tends s s' c.artifactId := by
  obtain ⟨a, ha, hstatus, heq⟩ := completeDeletion_ok h
  refine ⟨_, fun a' ha' => ?_, heq⟩
  obtain rfl := Option.some.inj (ha.symm.trans ha')
  exact ⟨⟨rfl, rfl, fun h => absurd h (by simp [ArtifactStatus.live]), fun h => absurd rfl h⟩,
    by rw [hstatus]; rfl, rfl⟩

theorem retryDeletion_tends {a : GenerationArtifact} (h : c.row s = some a) :
    Tends s (retryDeletion now c s) c.artifactId := by
  obtain ⟨ha, hstatus⟩ := claim_row h
  refine ⟨_, fun a' ha' => ?_, by simp only [retryDeletion, h]; rfl⟩
  obtain rfl := Option.some.inj (ha.symm.trans ha')
  refine ⟨⟨rfl, rfl, fun h => absurd h (by simp [ArtifactStatus.live]), fun _ => ⟨?_, rfl⟩⟩,
    by rw [hstatus]; rfl, rfl⟩
  rw [hstatus]
  decide

/-- What a cleaner holds, however old its claim: the row was given up, and
the key is the one it has or had. -/
structure ArtifactDeletionClaim.Stands (K : Nat → Nat → String → Prop) (s : Store)
    (c : ArtifactDeletionClaim) : Prop where
  row : ∃ a, s.artifacts.get c.artifactId = some a ∧ a.tenantId = c.tenantId
    ∧ a.generationJobId = c.jobId ∧ a.status.live = false
    ∧ (a.status ≠ .deleted → a.stored.objectKey = c.objectKey)
  keyed : K c.tenantId c.jobId c.objectKey

theorem ArtifactDeletionClaim.Stands.grows (h : c.Stands K s)
    (hgrows : Grows s.artifacts s'.artifacts) : c.Stands K s' := by
  obtain ⟨a, ha, htenant, hjob, hlive, hkey⟩ := h.row
  obtain ⟨a', ha', hev⟩ := hgrows _ a ha
  refine ⟨⟨a', ha', hev.tenantId.trans htenant, hev.generationJobId.trans hjob, ?_,
    fun hstatus => ?_⟩, h.keyed⟩
  · by_contra hnot
    have := hev.live ((Bool.not_eq_false _).mp hnot)
    rw [hlive] at this
    cases this
  · obtain ⟨hkept, heq⟩ := hev.key hstatus
    exact heq.trans (hkey hkept)

theorem claimDeletion_stands {updatedAt : Nat → Nat} {locked : Nat → Bool}
    (hs : Shelved K s) (h : claimDeletion now updatedAt locked s = (some c, s')) :
    c.Stands K s' := by
  obtain ⟨a, hrow, htenant, hjob, hkey, heq⟩ := claimDeletion_some h
  refine ArtifactDeletionClaim.Stands.grows (s := s) ⟨?_, ?_⟩ (claimDeletion_tends h).grows
  · exact ⟨a, hrow.get, htenant.symm, hjob.symm, hrow.live, fun _ => hkey.symm⟩
  · rw [htenant, hjob, hkey]
    exact hs.keyed _ a hrow.get hrow.kept

-- ================================================================= depot

/-- What holds of a depot in use. -/
structure DepotInv (K : Nat → Nat → String → Prop) (w : Depot) : Prop where
  shelved : Shelved K w.world.store
  deals : w.world.Deals K
  stands : ∀ pid p, w.cleaners.get pid = some p → p.claim.Stands K w.world.store
  complete : ∀ pid p, w.cleaners.get pid = some p → p.pc = .complete → p.claim ∈ w.answered
  removed : ∀ c ∈ w.removed, c.Stands K w.world.store

theorem DepotInv.opening (h : DepotOpening w) : DepotInv K w := by
  have hparties := h.world.parties
  refine ⟨⟨fun id a ha => ?_, fun id j hj => ?_, fun id a ha => ?_⟩, fun pid p hp => ?_,
    fun pid p hp => ?_, fun pid p hp => ?_, fun c hc => ?_⟩
  · rw [h.artifacts] at ha
    cases ha
  · rw [h.world.jobs] at hj
    cases hj
  · rw [h.artifacts] at ha
    cases ha
  · rw [hparties] at hp
    cases hp
  · rw [h.cleaners] at hp
    cases hp
  · rw [h.cleaners] at hp
    cases hp
  · rw [h.removed] at hc
    cases hc

/-- The tables move on, and nobody else does. -/
theorem DepotInv.write {x : World} {updatedAt : Nat → Nat} (h : DepotInv K w)
    (hshelved : Shelved K x.store) (hdeals : x.Deals K)
    (hgrows : Grows w.world.store.artifacts x.store.artifacts) :
    DepotInv K { w with world := x, updatedAt := updatedAt } where
  shelved := hshelved
  deals := hdeals
  stands pid p hp := (h.stands pid p hp).grows hgrows
  complete := h.complete
  removed c hc := (h.removed c hc).grows hgrows

/-- A cleaner goes on with its claim. -/
theorem DepotInv.turn {pid : Nat} {pc : CleanerPc} (h : DepotInv K w)
    (hc : c.Stands K w.world.store) (hpc : pc = .complete → c ∈ w.answered) :
    DepotInv K (w.turn pid c pc) := by
  refine ⟨h.shelved, h.deals, fun i p hp => ?_, fun i p hp => ?_, h.removed⟩
  · rcases Table.get_modify_cases hp with ⟨-, -, -, rfl⟩ | ⟨-, hp⟩
    · exact hc
    · exact h.stands i p hp
  · rcases Table.get_modify_cases hp with ⟨-, -, -, rfl⟩ | ⟨-, hp⟩
    · exact hpc
    · exact h.complete i p hp

/-- A delete that took effect is noted. -/
theorem DepotInv.note {answered : List ArtifactDeletionClaim} (h : DepotInv K w)
    (hc : c.Stands K w.world.store) (hsub : ∀ x ∈ w.answered, x ∈ answered) :
    DepotInv K { w with removed := w.removed ++ [c], answered := answered } := by
  refine ⟨h.shelved, h.deals, h.stands, fun pid p hp hpc => hsub _ (h.complete pid p hp hpc),
    fun x hx => ?_⟩
  rcases List.mem_append.mp hx with hx | hx
  · exact h.removed x hx
  · rw [List.mem_singleton.mp hx]
    exact hc

-- ============================================================== its steps

theorem claimTx_ok {locked : Nat → Bool} {x x' : Stamped} {o : Option ArtifactDeletionClaim}
    (h : claimTx now locked x = .ok (o, x')) :
    (o = none ∧ x' = x)
      ∨ ∃ c, o = some c ∧ claimDeletion now x.2 locked x.1 = (some c, x'.1) := by
  unfold claimTx at h
  split at h
  · obtain ⟨rfl, rfl⟩ := Prod.mk.inj (Except.ok.inj h)
    exact Or.inl ⟨rfl, rfl⟩
  · next c s heq =>
      obtain ⟨rfl, rfl⟩ := Prod.mk.inj (Except.ok.inj h)
      exact Or.inr ⟨c, rfl, heq⟩

theorem completeTx_ok {x x' : Stamped} {u : Unit} (h : completeTx now c x = .ok (u, x')) :
    completeDeletion now c x.1 = .ok ((), x'.1) := by
  simp only [completeTx, bind_eq_ok, pure_eq_ok, Prod.mk.injEq] at h
  obtain ⟨⟨_, s⟩, hok, -, rfl⟩ := h
  exact hok

theorem retryTx_ok {x x' : Stamped} {u : Unit} (h : retryTx now c x = .ok (u, x')) :
    x' = x ∨ ∃ a, c.row x.1 = some a ∧ x'.1 = retryDeletion now c x.1 := by
  unfold retryTx at h
  split at h
  · exact Or.inl (Prod.mk.inj (Except.ok.inj h)).2.symm
  · next a ha =>
      obtain ⟨-, rfl⟩ := Prod.mk.inj (Except.ok.inj h)
      exact Or.inr ⟨a, ha, rfl⟩

/-- What the last transaction of a pass does to the tables. -/
theorem completeTx_tends {db : DbOutcome} {x x' : Stamped}
    (h : (attempt db x (completeTx now c x)).2 = x') :
    x' = x ∨ completeDeletion now c x.1 = .ok ((), x'.1) := by
  rcases attempt_store h with rfl | ⟨u, hok⟩
  · exact Or.inl rfl
  · exact Or.inr (completeTx_ok hok)

theorem retryTx_tends {db : DbOutcome} {x x' : Stamped}
    (h : (attempt db x (retryTx now c x)).2 = x') :
    x' = x ∨ ∃ a, c.row x.1 = some a ∧ x'.1 = retryDeletion now c x.1 := by
  rcases attempt_store h with rfl | ⟨u, hok⟩
  · exact Or.inl rfl
  · exact retryTx_ok hok

/-- The tables after a write of the cleanup. -/
theorem DepotInv.tends {x : Stamped} (h : DepotInv K w) (ht : Tends w.world.store x.1 id) :
    DepotInv K (w.write x) :=
  h.write (ht.shelved h.shelved) h.deals ht.grows

theorem DepotInv.claim {db : DbOutcome} {locked : Nat → Bool} (h : DepotInv K w) :
    DepotInv K (w.claim db now locked) := by
  unfold Depot.claim
  split
  · next c x hcall =>
      obtain ⟨habsurd, -⟩ | ⟨o, hok, hnone | hsome⟩ := attempt_cases hcall
      · cases habsurd
      · cases hnone
      · obtain rfl := Option.some.inj hsome
        rcases claimTx_ok hok with ⟨hnone, -⟩ | ⟨c', hc', hclaim⟩
        · cases hnone
        · obtain rfl := Option.some.inj hc'
          have hw := h.tends (claimDeletion_tends hclaim)
          have hc := claimDeletion_stands h.shelved hclaim
          refine ⟨hw.shelved, hw.deals, fun pid p hp => ?_, fun pid p hp hpc => ?_, hw.removed⟩
          · rcases Table.get_insert_cases hp with ⟨-, rfl⟩ | hp
            · exact hc
            · exact hw.stands pid p hp
          · rcases Table.get_insert_cases hp with ⟨-, rfl⟩ | hp
            · cases hpc
            · exact hw.complete pid p hp hpc
  · next o x hnot hcall =>
      rcases attempt_store (congrArg Prod.snd hcall) with rfl | ⟨o', hok⟩
      · exact h
      · rcases claimTx_ok hok with ⟨-, rfl⟩ | ⟨c', -, hclaim⟩
        · exact h
        · exact h.tends (claimDeletion_tends hclaim)

theorem DepotInv.delete {pid : Nat} {outcome : DeleteOutcome} (h : DepotInv K w)
    (hc : c.Stands K w.world.store) : DepotInv K (w.delete naming pid c outcome) := by
  unfold Depot.delete
  split
  · exact h.turn hc (by simp)
  · cases outcome with
    | answered =>
        have hnote : DepotInv K
            { w with removed := w.removed ++ [c], answered := w.answered ++ [c] } :=
          h.note hc fun x hx => List.mem_append_left _ hx
        exact hnote.turn hc fun _ => List.mem_append_right _ List.mem_cons_self
    | refused => exact h.turn hc (by simp)
    | lost => exact (h.note hc fun x hx => hx).turn hc (by simp)

theorem DepotInv.finish {pid : Nat} {p : Cleaner} {db : DbOutcome} (h : DepotInv K w)
    (hp : w.cleaners.get pid = some p) : DepotInv K (w.finish pid p db now) := by
  have hstands := h.stands pid p hp
  unfold Depot.finish
  split
  · generalize hx : (attempt db w.tables (completeTx now p.claim w.tables)).2 = x
    rcases completeTx_tends hx with rfl | hok
    · exact h.turn hstands (by simp)
    · have ht := completeDeletion_tends hok
      exact (h.tends ht).turn (hstands.grows ht.grows) (by simp)
  · generalize hx : (attempt db w.tables (retryTx now p.claim w.tables)).2 = x
    rcases retryTx_tends hx with rfl | ⟨a, ha, heq⟩
    · exact h.turn hstands (by simp)
    · have ht : Tends w.world.store x.1 p.claim.artifactId := by
        rw [heq]
        exact retryDeletion_tends ha
      exact (h.tends ht).turn (hstands.grows ht.grows) (by simp)
  · exact h

/-- What the storage answers in an act is an artifact of the job it is asked
for. -/
def DepotAct.Stores (K : Nat → Nat → String → Prop) (w : Depot) : DepotAct → Prop
  | .generation a => a.Stores K w.world
  | _ => True

theorem depotStep_inv {b : DepotAct} (h : DepotInv K w) (hstores : b.Stores K w) :
    DepotInv K (depotStep cfg naming w b) := by
  cases b with
  | generation a =>
      exact h.write (worldStep_shelved h.shelved h.deals) (worldStep_deals h.deals hstores)
        (worldStep_grows cfg w.world a)
  | softDelete db now tenantId actorUserId jobId =>
      simp only [depotStep]
      generalize hx : (attempt db w.world.store
        (Generation.softDelete now tenantId actorUserId jobId w.world.store)).2 = x
      rcases attempt_store hx with rfl | ⟨u, hok⟩
      · exact h.write (x := w.world.write w.world.store) h.shelved (h.deals.of_eq rfl)
          (.refl _)
      · exact h.write (x := w.world.write x) (softDelete_shelved h.shelved hok)
          (h.deals.of_eq rfl) (softDelete_grows hok)
  | claim db now locked => exact h.claim
  | delete pid outcome =>
      simp only [depotStep]
      split
      · next p hp => exact h.delete (h.stands pid p (Option.filter_eq_some_iff.mp hp).1)
      · exact h
  | finish pid db now =>
      simp only [depotStep]
      split
      · next p hp => exact h.finish hp
      · exact h

/-- What a step can do to the tables. -/
inductive DepotWrite (cfg : Config) (w : Depot) : Store → Prop
  | kept : DepotWrite cfg w w.world.store
  | acted (a : Act) : DepotWrite cfg w (worldStep cfg w.world a).store
  | softDeleted (now tenantId actorUserId jobId : Nat) (u : Unit) (s' : Store)
      (hok : softDelete now tenantId actorUserId jobId w.world.store = .ok (u, s')) :
      DepotWrite cfg w s'
  | claimed (now : Nat) (locked : Nat → Bool) (c : ArtifactDeletionClaim) (s' : Store)
      (hok : claimDeletion now w.updatedAt locked w.world.store = (some c, s')) :
      DepotWrite cfg w s'
  | completed (now pid : Nat) (p : Cleaner) (s' : Store)
      (hp : w.cleaners.get pid = some p) (hpc : p.pc = .complete)
      (hok : completeDeletion now p.claim w.world.store = .ok ((), s')) :
      DepotWrite cfg w s'
  | retried (now : Nat) (c : ArtifactDeletionClaim) (a : GenerationArtifact)
      (hrow : c.row w.world.store = some a) :
      DepotWrite cfg w (retryDeletion now c w.world.store)

theorem depotStep_write (cfg : Config) (naming : Naming) (w : Depot) (b : DepotAct) :
    DepotWrite cfg w (depotStep cfg naming w b).world.store := by
  cases b with
  | generation a => exact .acted a
  | softDelete db now tenantId actorUserId jobId =>
      simp only [depotStep]
      generalize hx : (attempt db w.world.store
        (Generation.softDelete now tenantId actorUserId jobId w.world.store)).2 = x
      rcases attempt_store hx with rfl | ⟨u, hok⟩
      · exact .kept
      · exact .softDeleted now tenantId actorUserId jobId u x hok
  | claim db now locked =>
      have hcall : ∀ o x, attempt db w.tables (claimTx now locked w.tables) = (o, x) →
          DepotWrite cfg w x.1 := by
        intro o x hcall
        rcases attempt_store (congrArg Prod.snd hcall) with rfl | ⟨o', hok⟩
        · exact .kept
        · rcases claimTx_ok hok with ⟨-, rfl⟩ | ⟨c, -, hclaim⟩
          · exact .kept
          · exact .claimed now locked c x.1 hclaim
      simp only [depotStep, Depot.claim]
      split
      · next c x heq => exact hcall _ x heq
      · next o x hnot heq => exact hcall _ x heq
  | delete pid outcome =>
      simp only [depotStep]
      split
      · unfold Depot.delete
        split
        · exact .kept
        · cases outcome with
          | answered => exact .kept
          | refused => exact .kept
          | lost => exact .kept
      · exact .kept
  | finish pid db now =>
      simp only [depotStep]
      split
      · next p hp =>
          unfold Depot.finish
          split
          · next hpc =>
              generalize hx : (attempt db w.tables (completeTx now p.claim w.tables)).2 = x
              rcases completeTx_tends hx with rfl | hok
              · exact .kept
              · exact .completed now pid p x.1 hp hpc hok
          · generalize hx : (attempt db w.tables (retryTx now p.claim w.tables)).2 = x
            rcases retryTx_tends hx with rfl | ⟨a, ha, heq⟩
            · exact .kept
            · show DepotWrite cfg w x.1
              rw [heq]
              exact .retried now p.claim a ha
          · exact .kept
      · exact .kept

theorem DepotWrite.grows (h : DepotWrite cfg w s') :
    Grows w.world.store.artifacts s'.artifacts := by
  cases h with
  | kept => exact .refl _
  | acted a => exact worldStep_grows cfg w.world a
  | softDeleted now tenantId actorUserId jobId u s' hok => exact softDelete_grows hok
  | claimed now locked c s' hok => exact (claimDeletion_tends hok).grows
  | completed now pid p s' hp hpc hok => exact (completeDeletion_tends hok).grows
  | retried now c a hrow => exact (retryDeletion_tends hrow).grows

/-- The row is deleted. -/
def Depot.Deleted (w : Depot) (id : Nat) : Prop :=
  ∃ a, w.world.store.artifacts.get id = some a ∧ a.status = .deleted

/-- A delete of the object of the row returned. -/
def Depot.Confirmed (w : Depot) (id : Nat) : Prop :=
  ∃ a c, w.world.store.artifacts.get id = some a ∧ c ∈ w.answered
    ∧ c.artifactId = id ∧ c.tenantId = a.tenantId ∧ c.jobId = a.generationJobId
    ∧ c.objectKey = a.stored.objectKey

/-- Only a completion makes a row deleted. -/
theorem DepotWrite.deleted (h : DepotWrite cfg w s') (hkept : ¬ w.Deleted id)
    (ha' : s'.artifacts.get id = some a') (hstatus : a'.status = .deleted) :
    ∃ pid p a, w.cleaners.get pid = some p ∧ p.pc = .complete ∧ p.claim.artifactId = id
      ∧ w.world.store.artifacts.get id = some a ∧ a.status = .deletePending := by
  have hold : w.world.store.artifacts.get id ≠ some a' := fun ha => hkept ⟨a', ha, hstatus⟩
  cases h with
  | kept => exact absurd ha' hold
  | acted b =>
      rcases worldStep_artifacts cfg w.world b with heq | ⟨now, f, result, r, s', -, hok, heq⟩
      · rw [heq] at ha'
        exact absurd ha' hold
      · obtain ⟨j, -, -, -, -, hrows⟩ := complete_artifacts hok
        rw [heq, hrows] at ha'
        rcases get_foldl_insert_cases ha' with hmem | ha'
        · obtain ⟨item, -, rfl⟩ := List.mem_map.mp hmem
          cases hstatus
        · exact absurd ha' hold
  | softDeleted now tenantId actorUserId jobId u s' hok =>
      rcases softDelete_ok hok with rfl | ⟨j, -, -, -, -, hrows⟩
      · exact absurd ha' hold
      · rw [hrows, Table.get_update] at ha'
        obtain ⟨a, ha, rfl⟩ := Option.map_eq_some_iff.mp ha'
        unfold GenerationArtifact.takenOff at hstatus
        split at hstatus
        · cases hstatus
        · exact absurd ⟨a, ha, hstatus⟩ hkept
  | claimed now locked c s' hok =>
      obtain ⟨-, -, -, -, -, rfl⟩ := claimDeletion_some hok
      rcases Table.get_modify_cases ha' with ⟨_, _, _, rfl⟩ | ⟨_, ha'⟩
      · cases hstatus
      · exact absurd ha' hold
  | completed now pid p s' hp hpc hok =>
      obtain ⟨a, ha, hpending, rfl⟩ := completeDeletion_ok hok
      rcases Table.get_modify_cases ha' with ⟨rfl, _⟩ | ⟨_, ha'⟩
      · exact ⟨pid, p, a, hp, hpc, rfl, ha, hpending⟩
      · exact absurd ha' hold
  | retried now c a hrow =>
      simp only [retryDeletion, hrow] at ha'
      rcases Table.get_modify_cases ha' with ⟨_, _, _, rfl⟩ | ⟨_, ha'⟩
      · cases hstatus
      · exact absurd ha' hold

/-- And it does so after the delete has returned. -/
theorem depotStep_deleted {b : DepotAct} (h : DepotInv K w) (hkept : ¬ w.Deleted id)
    (hdeleted : (depotStep cfg naming w b).Deleted id) : w.Confirmed id := by
  obtain ⟨a', ha', hstatus⟩ := hdeleted
  obtain ⟨pid, p, a, hp, hpc, hid, ha, hpending⟩ :=
    (depotStep_write cfg naming w b).deleted hkept ha' hstatus
  obtain ⟨a₁, ha₁, htenant, hjob, -, hkey⟩ := (h.stands pid p hp).row
  rw [hid] at ha₁
  obtain rfl := Option.some.inj (ha.symm.trans ha₁)
  refine ⟨a, p.claim, ha, h.complete pid p hp hpc, hid, htenant.symm, hjob.symm, ?_⟩
  exact (hkey (by rw [hpending]; decide)).symm

theorem depotStep_absorbing {b : DepotAct} (h : w.Deleted id) :
    (depotStep cfg naming w b).Deleted id := by
  obtain ⟨a, ha, hstatus⟩ := h
  obtain ⟨a', ha', hev⟩ := (depotStep_write cfg naming w b).grows id a ha
  refine ⟨a', ha', ?_⟩
  by_contra hnot
  exact (hev.key hnot).1 hstatus

theorem depots_absorbing (bs : List DepotAct) (h : w.Deleted id) :
    (run (depotStep cfg naming) w bs).Deleted id := by
  have hstep : ∀ w b, Depot.Deleted w id → (depotStep cfg naming w b).Deleted id :=
    fun _ _ h => depotStep_absorbing h
  exact run_invariant hstep h bs

-- ================================================================== keys

/-- A key under which a storage stored an object for the job. -/
structure Issued (naming : Naming) (tenantId jobId : Nat) (key : String) : Prop where
  stored : ∃ (st : Storage) (call : ArtifactCall) (objects objects' : Objects)
      (artifact : StoredArtifact),
    call.tenantId = naming.tenant tenantId ∧ call.jobId = naming.job jobId
    ∧ artifact.objectKey = key
    ∧ ((∃ chunks, LocalArtifactStorage.transferRemote st call chunks objects
          = .ok (artifact, objects'))
      ∨ (∃ content, LocalArtifactStorage.putBytes st call content objects
          = .ok (artifact, objects'))
      ∨ (∃ chunks, S3ArtifactStorage.transferRemote st call chunks objects
          = .ok (artifact, objects'))
      ∨ ∃ content, S3ArtifactStorage.putBytes st call content objects
          = .ok (artifact, objects'))

theorem writeStream_key {st : Storage} {key mimeType : String} {chunks : List Bytes}
    {objects objects' : Objects} {artifact : StoredArtifact}
    (h : LocalArtifactStorage.writeStream st key mimeType chunks objects
      = .ok (artifact, objects')) : artifact.objectKey = key := by
  simp only [LocalArtifactStorage.writeStream, bind_eq_ok, pure_eq_ok, Prod.mk.injEq] at h
  obtain ⟨_, -, -, -, rfl, -⟩ := h
  rfl

/-- Every storage makes the key of a new object of the tenant and the job
it is called for. -/
theorem Issued.scoped {tenantId jobId : Nat} {key : String}
    (h : Issued naming tenantId jobId key) :
    ∃ g, ScopedKey (naming.tenant tenantId) (naming.job jobId) key g := by
  obtain ⟨st, call, objects, objects', artifact, htenant, hjob, rfl, hcall⟩ := h.stored
  rw [← htenant, ← hjob]
  rcases hcall with ⟨chunks, h⟩ | ⟨content, h⟩ | ⟨chunks, h⟩ | ⟨content, h⟩
  · simp only [LocalArtifactStorage.transferRemote, bind_eq_ok] at h
    obtain ⟨_, -, key, hkey, -, -, h⟩ := h
    rw [writeStream_key h]
    exact newKey_scoped hkey
  · simp only [LocalArtifactStorage.putBytes, admitBytes, bind_eq_ok, pure_eq_ok] at h
    obtain ⟨_, ⟨_, -, -, -, -, -, key, hkey, rfl⟩, -, -, h⟩ := h
    rw [writeStream_key h]
    exact newKey_scoped hkey
  · simp only [S3ArtifactStorage.transferRemote, bind_eq_ok, pure_eq_ok, Prod.mk.injEq] at h
    obtain ⟨_, -, key, hkey, _, -, _, -, rfl, -⟩ := h
    exact newKey_scoped hkey
  · simp only [S3ArtifactStorage.putBytes, admitBytes, bind_eq_ok, pure_eq_ok,
      Prod.mk.injEq] at h
    obtain ⟨_, ⟨_, -, -, -, -, -, key, hkey, rfl⟩, -, -, rfl, -⟩ := h
    exact newKey_scoped hkey

/-- What has been removed was of a deleted job, so nothing of a job that is
there. -/
theorem DepotInv.spared (h : DepotInv (Issued naming) w)
    (hnames : ∀ i j, i < w.world.store.jobs.nextId → j < w.world.store.jobs.nextId →
      naming.job i = naming.job j → i = j)
    (ha : w.world.store.artifacts.get id = some a) (hlive : a.status.live = true)
    (hc : c ∈ w.removed) : c.objectKey ≠ a.stored.objectKey := by
  intro heq
  obtain ⟨j, hj, -, hiff⟩ := h.shelved.placed id a ha
  have hkept : a.status ≠ .deleted := by
    rintro hdeleted
    rw [hdeleted] at hlive
    cases hlive
  obtain ⟨g, hg⟩ := (h.shelved.keyed id a ha hkept).scoped
  obtain ⟨a₁, ha₁, -, hjob₁, hout, -⟩ := (h.removed c hc).row
  obtain ⟨g₁, hg₁⟩ := (h.removed c hc).keyed.scoped
  obtain ⟨j₁, hj₁, -, hiff₁⟩ := h.shelved.placed _ a₁ ha₁
  rw [heq] at hg₁
  -- the same key, so the same job
  have hsame : c.jobId = a.generationJobId := by
    rw [hjob₁] at hj₁
    exact hnames _ _ (Table.lt_nextId hj₁) (Table.lt_nextId hj) (hg₁.scope hg).2
  rw [hjob₁, hsame, hj] at hj₁
  obtain rfl := Option.some.inj hj₁
  rw [hiff₁.mpr (hiff.mp hlive)] at hout
  cases hout

-- ================================================================ summary

/-- In any run of any number of cleaners over the generation system, with
storages that fail and transactions that are lost: an artifact becomes
deleted only once a delete of its object has returned, it stays so, and no
delete that took effect was of the object of a ready artifact. -/
theorem cleanup_safety (hopen : DepotOpening w) {acts : List DepotAct}
    (hstores : RunAll (depotStep cfg naming) (fun w b => b.Stores (Issued naming) w) w acts)
    (hnames : ∀ i j, i < (run (depotStep cfg naming) w acts).world.store.jobs.nextId →
      j < (run (depotStep cfg naming) w acts).world.store.jobs.nextId →
      naming.job i = naming.job j → i = j) :
    (∀ as b bs, acts = as ++ b :: bs → ∀ id,
      ¬ (run (depotStep cfg naming) w as).Deleted id →
      (run (depotStep cfg naming) w (as ++ [b])).Deleted id →
      (run (depotStep cfg naming) w as).Confirmed id)
    ∧ (∀ as bs, acts = as ++ bs → ∀ id, (run (depotStep cfg naming) w as).Deleted id →
      (run (depotStep cfg naming) w acts).Deleted id)
    ∧ (∀ id a, (run (depotStep cfg naming) w acts).world.store.artifacts.get id = some a →
      a.status = .ready → ∀ c ∈ (run (depotStep cfg naming) w acts).removed,
        c.objectKey ≠ a.stored.objectKey) := by
  have hinv : ∀ as bs, acts = as ++ bs →
      DepotInv (Issued naming) (run (depotStep cfg naming) w as) := by
    intro as bs heq
    rw [heq] at hstores
    exact run_invariant_of (fun _ _ hgood h => depotStep_inv h hgood)
      (runAll_append.mp hstores).1 (.opening hopen)
  refine ⟨fun as b bs heq id hkept hdeleted => ?_, fun as bs heq id hdeleted => ?_,
    fun id a ha hready c hc => ?_⟩
  · rw [run_concat] at hdeleted
    exact depotStep_deleted (hinv as _ heq) hkept hdeleted
  · rw [heq, run_append]
    exact depots_absorbing bs hdeleted
  · have h := hinv acts [] (List.append_nil acts).symm
    exact h.spared hnames ha (by rw [hready]; rfl) hc


/-- The only tenant and the only job. -/
def sampleNaming : Naming where
  tenant _ := ⟨1, UUID.one_bound⟩
  job _ := ⟨2, UUID.two_bound⟩

def sampleBucket : Storage where
  sha := { State := Unit, init := (), update := fun _ _ => (), hexdigest := fun _ => "d1" }
  maxBytes := 16
  available := true

def sampleVideoCall : ArtifactCall :=
  { tenantId := ⟨1, UUID.one_bound⟩, jobId := ⟨2, UUID.two_bound⟩, kind := "output"
    mimeType := "video/mp4", nonce := ⟨3, UUID.three_bound⟩ }

/-- The first bytes of a video. -/
def sampleMp4 : Bytes := [0, 0, 0, 24, 0x66, 0x74, 0x79, 0x70, 0x69, 0x73, 0x6F, 0x6D]

/-- And what the bucket makes of them. -/
def sampleVideo : StoredArtifact :=
  storedArtifact "s3" ("00000000-0000-0000-0000-000000000001/"
    ++ "00000000-0000-0000-0000-000000000002/"
    ++ "output-00000000000000000000000000000003.mp4") "video/mp4" 12 "d1"

theorem sampleVideo_issued (tenantId jobId : Nat) :
    Issued sampleNaming tenantId jobId sampleVideo.objectKey := by
  obtain ⟨x, hx⟩ : ∃ x, S3ArtifactStorage.transferRemote sampleBucket sampleVideoCall
    [sampleMp4] [] = .ok (sampleVideo, x) := ⟨_, rfl⟩
  exact ⟨sampleBucket, sampleVideoCall, [], x, sampleVideo, rfl, rfl, rfl,
    Or.inr (Or.inr (Or.inl ⟨[sampleMp4], hx⟩))⟩

def sampleDepot : Depot :=
  { world := sampleWorld, updatedAt := fun _ => 0, cleaners := Table.empty, removed := []
    answered := [] }

/-- A video is made, its job is deleted, and a cleaner removes the video. -/
def sampleCleanup : List DepotAct :=
  let env := { sampleEnv with storage := fun _ => some sampleVideo }
  [.generation sampleAccept, .generation sampleClaim]
    ++ List.replicate 15 (.generation (.work 0 env))
    ++ [.softDelete .committed 30 1 2 0, .claim .committed 40 fun _ => false,
        .delete 0 .answered]

theorem cleanup_safety_sample :
    DepotOpening sampleDepot
      ∧ (run (depotStep sampleConfig sampleNaming) sampleDepot sampleCleanup).Confirmed 0 := by
  have hopen : DepotOpening sampleDepot := ⟨sampleWorld_opening, rfl, rfl, rfl, rfl⟩
  have hstores : RunAll (depotStep sampleConfig sampleNaming)
      (fun w b => b.Stores (Issued sampleNaming) w) sampleDepot
      (sampleCleanup ++ [.finish 0 .committed 50]) := by
    refine runAll_of_forall (fun b hb w => ?_) sampleDepot
    simp only [sampleCleanup, List.mem_append, List.mem_cons, List.not_mem_nil, or_false,
      List.mem_replicate] at hb
    rcases hb with (((rfl | rfl) | ⟨-, rfl⟩) | rfl | rfl | rfl) | rfl
    · trivial
    · trivial
    · intro p hp
      cases p with
      | worker p =>
          rintro - i a ha
          obtain rfl := Option.some.inj ha
          exact sampleVideo_issued _ _
      | recovery p =>
          rintro - i a ha
          obtain rfl := Option.some.inj ha
          exact sampleVideo_issued _ _
      | operator p => trivial
      | reconciler p => trivial
    all_goals trivial
  have hone : (run (depotStep sampleConfig sampleNaming) sampleDepot
      (sampleCleanup ++ [.finish 0 .committed 50])).world.store.jobs.nextId = 1 := by
    decide +kernel
  refine ⟨hopen, (cleanup_safety hopen hstores ?_).1 sampleCleanup _ [] rfl 0 ?_ ?_⟩
  · rw [hone]
    intro i j hi hj _
    omega
  · rintro ⟨a, ha, hstatus⟩
    have hpending : ((run (depotStep sampleConfig sampleNaming) sampleDepot
        sampleCleanup).world.store.artifacts.get 0).any (·.status == .deletePending) = true := by
      decide +kernel
    rw [ha] at hpending
    simp [hstatus] at hpending
  · have hdeleted : ((run (depotStep sampleConfig sampleNaming) sampleDepot
        (sampleCleanup ++ [.finish 0 .committed 50])).world.store.artifacts.get 0).any
          (·.status == .deleted) = true := by
      decide +kernel
    obtain ⟨a, ha, hstatus⟩ := (Option.any_eq_true _ _).mp hdeleted
    exact ⟨a, ha, beq_iff_eq.mp hstatus⟩

end Mosaic.Generation
