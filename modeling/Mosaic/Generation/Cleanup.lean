/-
The end of a job's artifacts (app/generations/lifecycle.py): the user's
soft delete, and the cleanup that removes the stored objects.

# A pass of the cleanup

`run_once` claims one artifact, deletes its object, and completes or
retries. The claim and what follows are transactions of their own with a
call to the storage in between, so a pass may be stopped after its claim;
`Site.claims` are the passes under way, and `none` one that is over.

# A column of its own

`updated_at` of an artifact is read by the cleanup alone, of rows it wrote
itself; it is kept beside the store, in `Site.updatedAt`.
-/
import Mosaic.Generation.Response
import Mosaic.Generation.World

namespace Mosaic.Generation

open Lib

-- =========================================================== soft delete

/-- `soft_delete`. -/
def softDelete (now tenantId actorUserId jobId : Nat) (s : Store) :
    Except GenerationError (Unit × Store) := do
  let j ← orRaise ((s.jobs.get jobId).filter fun j =>
    j.tenantId == tenantId && j.actorUserId == some actorUserId) .notFound
  if j.deletedAt.isSome = true then return ((), s)
  else do
    raiseIf (j.status.isTerminal = false) .stateConflict
    return ((), { s.setJob jobId { j with deletedAt := some now, updatedAt := now } with
      artifacts := s.artifacts.update fun a =>
        if a.tenantId = tenantId ∧ a.generationJobId = jobId
            ∧ (a.status = .pending ∨ a.status = .ready) then
          { a with status := .expired, stored := { a.stored with expiresAt := some now } }
        else a
      audit := s.audit.insert
        { tenantId, actorUserId := some actorUserId, action := "generation.delete"
          resourceId := jobId, payload := [("retention", "cleanup_pending")] } })

-- =============================================================== cleanup

/-- `ArtifactDeletionClaim`. -/
structure ArtifactDeletionClaim where
  artifactId : Nat
  tenantId : Nat
  jobId : Nat
  objectKey : String
deriving Repr, DecidableEq

/-- The `WHERE` of `_claim`: expired, or given up five minutes ago. -/
def deletable (now : Nat) (updatedAt : Nat → Nat) (s : Store)
    (e : Nat × GenerationArtifact) : Bool :=
  (s.jobs.get e.2.generationJobId).any (fun j => j.tenantId == e.2.tenantId)
    && ((e.2.status == .expired && e.2.stored.expiresAt.any (· ≤ now))
      || (e.2.status == .deletePending && after (updatedAt e.1) (5 * 60) ≤ now))

/-- `expires_at, id`, with the missing ones last. -/
def expiresBefore (a b : Nat × GenerationArtifact) : Bool :=
  match a.2.stored.expiresAt, b.2.stored.expiresAt with
  | some x, some y => x < y || (x == y && a.1 ≤ b.1)
  | some _, none => true
  | none, some _ => false
  | none, none => a.1 ≤ b.1

/-- `_claim`. -/
def claimDeletion (now : Nat) (updatedAt : Nat → Nat) (locked : Nat → Bool) (s : Store) :
    Option ArtifactDeletionClaim × Store :=
  match (s.artifacts.ordered expiresBefore fun e =>
      deletable now updatedAt s e && !locked e.1).head? with
  | none => (none, s)
  | some (id, a) =>
      (some { artifactId := id, tenantId := a.tenantId, jobId := a.generationJobId
              objectKey := a.stored.objectKey },
        { s with artifacts := s.artifacts.modify id fun a =>
            { a with status := .deletePending } })

/-- The row of a claim, if it is still to be deleted. -/
def ArtifactDeletionClaim.row (c : ArtifactDeletionClaim) (s : Store) :
    Option GenerationArtifact :=
  (s.artifacts.get c.artifactId).filter fun a =>
    a.tenantId == c.tenantId && a.status == .deletePending

/-- `_complete`. -/
def completeDeletion (now : Nat) (c : ArtifactDeletionClaim) (s : Store) :
    Except GenerationError (Unit × Store) := do
  let _ ← orRaise (c.row s) .stateConflict
  return ((), { s with artifacts := s.artifacts.modify c.artifactId fun a =>
    { a with
      status := .deleted
      stored := { a.stored with
        objectKey := "deleted/" ++ toString c.artifactId, sizeBytes := 0, sha256 := none
        expiresAt := some now } } })

/-- `_retry`. -/
def retryDeletion (now : Nat) (c : ArtifactDeletionClaim) (s : Store) : Store :=
  match c.row s with
  | none => s
  | some _ => { s with artifacts := s.artifacts.modify c.artifactId fun a =>
      { a with
        status := .expired
        stored := { a.stored with expiresAt := some (after now (5 * 60)) } } }

-- ================================================================= site

structure Site where
  world : World
  updatedAt : Nat → Nat
  claims : Table (Option ArtifactDeletionClaim)

inductive SiteAct
  | generation (a : Act)
  | softDelete (now tenantId actorUserId jobId : Nat)
  | claimDeletion (now : Nat) (locked : Nat → Bool)
  /-- `delete_object`, and what its outcome leads to. -/
  | finishDeletion (pid now : Nat) (deleted : Bool)

/-- A write of the cleanup, which stamps one artifact. -/
def Site.stamp (w : Site) (now artifactId : Nat) (s : Store) : Site :=
  { w with
    world := { w.world with store := s }
    updatedAt := fun id => if id = artifactId then now else w.updatedAt id }

def siteStep (cfg : Config) (w : Site) : SiteAct → Site
  | .generation a => { w with world := worldStep cfg w.world a }
  | .softDelete now tenantId actorUserId jobId =>
      { w with world :=
          w.world.call (softDelete now tenantId actorUserId jobId w.world.store) }
  | .claimDeletion now locked =>
      match claimDeletion now w.updatedAt locked w.world.store with
      | (none, _) => w
      | (some c, s) =>
          { w.stamp now c.artifactId s with claims := w.claims.insert (some c) }
  | .finishDeletion pid now deleted =>
      match (w.claims.get pid).join with
      | none => w
      | some c =>
          let w := { w with claims := w.claims.modify pid fun _ => none }
          if deleted = true then
            match completeDeletion now c w.world.store with
            | .ok (_, s) => w.stamp now c.artifactId s
            | .error _ => w
          else w.stamp now c.artifactId (retryDeletion now c w.world.store)

/-- A site nobody has used. -/
structure SiteOpening (w : Site) : Prop where
  world : WorldOpening w.world
  artifacts : w.world.store.artifacts = Table.empty
  idempotency : w.world.store.idempotency = Table.empty
  claims : w.claims = Table.empty

end Mosaic.Generation
