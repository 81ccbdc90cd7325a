/-
The distributed semaphore (app/infrastructure/concurrency.py).

# Scripts

Each script runs atomically inside Redis, with one reading of the Redis
clock in milliseconds. A key that has expired is absent to all of them.

# Leases

A `RedisLease` is what a granted `acquire` hands to its caller. Two
fields are history: `validUntil`, the end of the time the last grant of
this lease gave it, and `released`, whether its holder has given it up.
A call to Redis may get lost on its way there or on its way back, as a
database call may (`attempt`).
-/
import Mosaic.Lib.Checked
import Mosaic.Lib.Db
import Mosaic.Lib.Redis
import Mosaic.Lib.Run

namespace Mosaic.Infrastructure

open Lib

-- =============================================================== scripts

/-- `ACQUIRE_SCRIPT`. -/
def acquireScript (now token limit ttl : Nat) (z : Zset) : Nat × Zset :=
  let z := (z.found now).zremrangebyscore now
  if limit ≤ z.zcard then (0, z)
  else (1, (z.zadd (now + ttl) token).pexpire now (ttl * 2))

/-- `RENEW_SCRIPT`. -/
def renewScript (now token ttl : Nat) (z : Zset) : Nat × Zset :=
  let z := (z.found now).zremrangebyscore now
  if z.zscore token = none then (0, z)
  else (1, (z.zadd (now + ttl) token).pexpire now (ttl * 2))

/-- `RELEASE_SCRIPT`. -/
def releaseScript (now token : Nat) (z : Zset) : Nat × Zset :=
  let (removed, z) := (z.found now).zrem token
  (removed, if z.zcard = 0 then z.del else z)

-- ================================================================ leases

/-- `RedisLease`; `released` and `validUntil` are history. -/
structure RedisLease where
  token : Nat
  ttlMs : Nat
  active : Bool
  released : Bool
  validUntil : Nat
deriving Repr, DecidableEq

/-- `_ttl_ms`. The code multiplies floats, whose product may fall just short
of a millisecond (1.001 gives 1000). The argument stands for any float with
this whole part of milliseconds; nothing else of it is used. -/
def ttlMs (ttlSeconds : ℚ) : Except String Nat := do
  raiseIf (ttlSeconds < 1 ∨ 3600 < ttlSeconds) "ttl_seconds must be between 1 and 3600"
  return (ttlSeconds * 1000).floor.toNat

/-- The state of one key, the Redis clock and every lease granted on it. -/
structure Semaphore where
  clock : Nat
  key : Zset
  leases : List RedisLease
  nextToken : Nat
deriving Repr, DecidableEq

def Semaphore.initial : Semaphore := ⟨0, Zset.absent, [], 0⟩

/-- One evaluation of a script at the present time. -/
def Semaphore.eval (s : Semaphore) (delivery : DbOutcome)
    (script : Zset → Nat × Zset) : Option Nat × Zset :=
  attempt delivery s.key (.ok (script s.key) : Except Unit (Nat × Zset))

/-- `acquire`. A refused or failed call leaves its caller no lease. -/
def Semaphore.acquire (s : Semaphore) (limit : Nat) (ttlSeconds : ℚ)
    (delivery : DbOutcome) : Semaphore :=
  match (if limit < 1 then .error "limit must be at least 1" else ttlMs ttlSeconds) with
  | .error _ => s
  | .ok ttl =>
      let token := s.nextToken
      let (reply, key) := s.eval delivery (acquireScript s.clock token limit ttl)
      let s := { s with key, nextToken := token + 1 }
      match reply with
      | some 1 =>
          let lease : RedisLease :=
            { token, ttlMs := ttl, active := true, released := false
              validUntil := s.clock + ttl }
          { s with leases := s.leases ++ [lease] }
      | _ => s

/-- The leases with this token rewritten. -/
def Semaphore.setLease (s : Semaphore) (token : Nat) (f : RedisLease → RedisLease) :
    List RedisLease :=
  s.leases.map fun l => if l.token = token then f l else l

/-- `RedisLease.renew`. A script that ran extends the lease, whether its reply
arrives or not. -/
def Semaphore.renew (s : Semaphore) (token : Nat) (delivery : DbOutcome) : Semaphore :=
  match s.leases.find? fun l => l.token == token with
  | none => s
  | some lease =>
      if lease.active = false then s
      else
        let (reply, key) := s.eval delivery (renewScript s.clock token lease.ttlMs)
        let granted := delivery ≠ .rolledBack
          ∧ (renewScript s.clock token lease.ttlMs s.key).1 = 1
        { s with
          key
          leases := s.setLease token fun l =>
            { l with active := decide (reply = some 1)
                     validUntil := if granted then s.clock + l.ttlMs else l.validUntil } }

/-- `RedisLease.release`. -/
def Semaphore.release (s : Semaphore) (token : Nat) (delivery : DbOutcome) : Semaphore :=
  match s.leases.find? fun l => l.token == token with
  | none => s
  | some lease =>
      if lease.active = false then s
      else
        let (_, key) := s.eval delivery (releaseScript s.clock token)
        { s with
          key
          leases := s.setLease token fun l => { l with active := false, released := true } }

inductive SemaphoreAct
  /-- Time passes. -/
  | advance (ms : Nat)
  | acquire (ttlSeconds : ℚ) (delivery : DbOutcome)
  | renew (token : Nat) (delivery : DbOutcome)
  | release (token : Nat) (delivery : DbOutcome)

def semaphoreStep (limit : Nat) (s : Semaphore) : SemaphoreAct → Semaphore
  | .advance ms => { s with clock := s.clock + ms }
  | .acquire ttlSeconds delivery => s.acquire limit ttlSeconds delivery
  | .renew token delivery => s.renew token delivery
  | .release token delivery => s.release token delivery

end Mosaic.Infrastructure
