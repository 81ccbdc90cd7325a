/-
Any number of cleanup passes beside the generation system
(`ArtifactCleanupService.run_once`, app/generations/lifecycle.py).

# A pass

A pass is three steps of one process: the transaction that claims an
artifact, the call of the storage, and the transaction that completes the
deletion or puts it off. A crash is a process that takes no further step;
its claim goes stale, and another pass takes the artifact over while the
first may still be under way.

# The storage

A delete can be answered, raise, or raise although the object is gone.
Two lists record what happened, and no step reads them: `answered` are the
deletes that returned, `removed` all that took effect.

# Names

Rows are numbered here; the UUIDs they stand for are `Naming`, as only a
storage key spells them out.
-/
import Mosaic.Generation.Cleanup
import Mosaic.Generation.Storage

namespace Mosaic.Generation

open Lib

/-- The UUIDs of the tenants and the jobs. -/
structure Naming where
  tenant : Nat → UUID
  job : Nat → UUID

inductive CleanerPc
  | delete
  | complete
  | retry
  | ended
deriving Repr, DecidableEq

/-- One `run_once` that got a claim. -/
structure Cleaner where
  claim : ArtifactDeletionClaim
  pc : CleanerPc
deriving Repr, DecidableEq

/-- What comes of a call of the storage. -/
inductive DeleteOutcome
  | answered
  | refused
  /-- The object is deleted, and the call raises. -/
  | lost
deriving Repr, DecidableEq

structure Depot where
  world : World
  updatedAt : Nat → Nat
  cleaners : Table Cleaner
  removed : List ArtifactDeletionClaim
  answered : List ArtifactDeletionClaim

inductive DepotAct
  | generation (a : Act)
  | softDelete (db : DbOutcome) (now tenantId actorUserId jobId : Nat)
  | claim (db : DbOutcome) (now : Nat) (locked : Nat → Bool)
  | delete (pid : Nat) (outcome : DeleteOutcome)
  | finish (pid : Nat) (db : DbOutcome) (now : Nat)

-- ========================================================== transactions

/-- The tables, with the `updated_at` of the artifacts. -/
abbrev Stamped := Store × (Nat → Nat)

/-- `updated_at=now`, of one artifact. -/
def stamped (now id : Nat) (updatedAt : Nat → Nat) : Nat → Nat :=
  fun i => if i = id then now else updatedAt i

def claimTx (now : Nat) (locked : Nat → Bool) (x : Stamped) :
    Except GenerationError (Option ArtifactDeletionClaim × Stamped) :=
  match claimDeletion now x.2 locked x.1 with
  | (none, _) => .ok (none, x)
  | (some c, s) => .ok (some c, (s, stamped now c.artifactId x.2))

def completeTx (now : Nat) (c : ArtifactDeletionClaim) (x : Stamped) :
    Except GenerationError (Unit × Stamped) := do
  let (_, s) ← completeDeletion now c x.1
  return ((), (s, stamped now c.artifactId x.2))

def retryTx (now : Nat) (c : ArtifactDeletionClaim) (x : Stamped) :
    Except GenerationError (Unit × Stamped) :=
  match c.row x.1 with
  | none => .ok ((), x)
  | some _ => .ok ((), (retryDeletion now c x.1, stamped now c.artifactId x.2))

-- ================================================================= steps

namespace Depot

def tables (w : Depot) : Stamped := (w.world.store, w.updatedAt)

def write (w : Depot) (x : Stamped) : Depot :=
  { w with world := { w.world with store := x.1 }, updatedAt := x.2 }

def turn (w : Depot) (pid : Nat) (c : ArtifactDeletionClaim) (pc : CleanerPc) : Depot :=
  { w with cleaners := w.cleaners.modify pid fun _ => { claim := c, pc } }

/-- `_claim`, and the pass it starts. -/
def claim (w : Depot) (db : DbOutcome) (now : Nat) (locked : Nat → Bool) : Depot :=
  match attempt db w.tables (claimTx now locked w.tables) with
  | (some (some c), x) =>
      { w.write x with cleaners := w.cleaners.insert { claim := c, pc := .delete } }
  | (_, x) => w.write x

/-- `delete_object`. -/
def delete (naming : Naming) (w : Depot) (pid : Nat) (c : ArtifactDeletionClaim)
    (outcome : DeleteOutcome) : Depot :=
  match validateScopedKey (naming.tenant c.tenantId) (naming.job c.jobId) c.objectKey with
  | .error _ => w.turn pid c .retry
  | .ok _ =>
      match outcome with
      | .answered =>
          { w.turn pid c .complete with
            removed := w.removed ++ [c], answered := w.answered ++ [c] }
      | .refused => w.turn pid c .retry
      | .lost => { w.turn pid c .retry with removed := w.removed ++ [c] }

/-- `_complete` or `_retry`. -/
def finish (w : Depot) (pid : Nat) (p : Cleaner) (db : DbOutcome) (now : Nat) : Depot :=
  match p.pc with
  | .complete =>
      (w.write (attempt db w.tables (completeTx now p.claim w.tables)).2).turn pid p.claim
        .ended
  | .retry =>
      (w.write (attempt db w.tables (retryTx now p.claim w.tables)).2).turn pid p.claim
        .ended
  | _ => w

end Depot

def depotStep (cfg : Config) (naming : Naming) (w : Depot) : DepotAct → Depot
  | .generation a => { w with world := worldStep cfg w.world a }
  | .softDelete db now tenantId actorUserId jobId =>
      { w with world := w.world.write (attempt db w.world.store
          (softDelete now tenantId actorUserId jobId w.world.store)).2 }
  | .claim db now locked => w.claim db now locked
  | .delete pid outcome =>
      match (w.cleaners.get pid).filter fun p => p.pc == .delete with
      | some p => w.delete naming pid p.claim outcome
      | none => w
  | .finish pid db now =>
      match w.cleaners.get pid with
      | some p => w.finish pid p db now
      | none => w

/-- A depot nobody has used. -/
structure DepotOpening (w : Depot) : Prop where
  world : WorldOpening w.world
  artifacts : w.world.store.artifacts = Table.empty
  cleaners : w.cleaners = Table.empty
  removed : w.removed = []
  answered : w.answered = []

end Mosaic.Generation
