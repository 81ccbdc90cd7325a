/-
The semaphore admits no more holders than its limit.

# Two expiries

A member of the set goes when its own time is over; the key goes, with
every member, when the time set by the *last* grant is over. The second
must not come before the first: `SemaphoreInv.outlived` says that the key
outlives every live lease, and a grant keeps it so unless its own time is
too short for a lease that is already there (`Outlives`).

`semaphore_bound` is the bound over every run whose grants all meet that
condition, and says that one grant that does not is enough to lose it.
-/
import Mosaic.Infrastructure.Concurrency

namespace Mosaic.Infrastructure

open Lib

variable {limit : Nat} {s s' : Semaphore} {token ttl : Nat} {delivery : DbOutcome}

-- ================================================================== law

/-- Granted, not given up, and not over. -/
def Semaphore.live (s : Semaphore) (l : RedisLease) : Bool :=
  !l.released && decide (s.clock < l.validUntil)

/-- At most `limit` leases are live, and each of them can be renewed. -/
structure Bounded (limit : Nat) (s : Semaphore) : Prop where
  bound : (s.leases.filter s.live).length ≤ limit
  renewable : ∀ l ∈ s.leases, s.live l = true →
    (renewScript s.clock l.token l.ttlMs s.key).1 = 1

/-- The token and the time of the grant an act comes to, if it does. -/
def Semaphore.grants (s : Semaphore) (limit : Nat) : SemaphoreAct → Option (Nat × Nat)
  | .acquire ttlSeconds delivery =>
      match (if limit < 1 then .error "limit must be at least 1" else ttlMs ttlSeconds) with
      | .error _ => none
      | .ok ttl =>
          if delivery ≠ .rolledBack ∧ (acquireScript s.clock s.nextToken limit ttl s.key).1 = 1
          then some (s.nextToken, ttl) else none
  | .renew token delivery =>
      match s.leases.find? fun l => l.token == token with
      | none => none
      | some lease =>
          if lease.active = true ∧ delivery ≠ .rolledBack
              ∧ (renewScript s.clock token lease.ttlMs s.key).1 = 1
          then some (token, lease.ttlMs) else none
  | _ => none

/-- No other live lease has more than twice the granted time left. -/
def Outlives (limit : Nat) (s : Semaphore) (act : SemaphoreAct) : Prop :=
  ∀ g ∈ s.grants limit act, ∀ l ∈ s.leases, s.live l = true → l.token ≠ g.1 →
    l.validUntil ≤ s.clock + g.2 * 2 + 1

instance Outlives.decidable (limit : Nat) (s : Semaphore) (act : SemaphoreAct) :
    Decidable (Outlives limit s act) :=
  match h : s.grants limit act with
  | none => isTrue fun g hg => by rw [h] at hg; cases hg
  | some g =>
      decidable_of_iff (∀ l ∈ s.leases, s.live l = true → l.token ≠ g.1 →
        l.validUntil ≤ s.clock + g.2 * 2 + 1) (by simp [Outlives, h])

-- ============================================================ invariant

/-- The set as a script sees it once it has dropped what is over. -/
def Semaphore.purged (s : Semaphore) : Zset :=
  (s.key.found s.clock).zremrangebyscore s.clock

/-- The live leases of a set that its key outlives. -/
structure Holding (s : Semaphore) (key : Zset) (leases : List RedisLease) : Prop where
  held : ∀ l ∈ leases, s.live l = true → (l.token, l.validUntil) ∈ key.members
  outlived : ∀ l ∈ leases, s.live l = true →
    ∀ t, key.expireAt = some t → l.validUntil ≤ t + 1

structure SemaphoreInv (limit : Nat) (s : Semaphore) : Prop where
  tokens : (s.leases.map (·.token)).Nodup
  drawn : ∀ l ∈ s.leases, l.token < s.nextToken
  known : ∀ e ∈ s.key.members, e.1 < s.nextToken
  distinct : s.key.Distinct
  room : s.key.zcard ≤ limit
  holding : Holding s s.key s.leases

theorem Semaphore.live_iff {l : RedisLease} :
    s.live l = true ↔ l.released = false ∧ s.clock < l.validUntil := by
  simp [Semaphore.live]

theorem purged_sublist (s : Semaphore) : s.purged.members.Sublist s.key.members :=
  (Zset.zremrangebyscore_sublist _ _).trans (Zset.found_sublist _ _)

theorem expireAt_purged {t : Nat} (h : s.purged.expireAt = some t) :
    s.key.expireAt = some t :=
  Zset.expireAt_found (Zset.expireAt_withMembers h)

/-- A key with a live lease in it has not expired. -/
theorem SemaphoreInv.found_key (h : SemaphoreInv limit s) {l : RedisLease}
    (hl : l ∈ s.leases) (hlive : s.live l = true) : s.key.found s.clock = s.key := by
  apply Zset.found_eq
  intro t ht
  have hout := h.holding.outlived l hl hlive t ht
  have hvalid := (Semaphore.live_iff.mp hlive).2
  omega

theorem SemaphoreInv.mem_purged (h : SemaphoreInv limit s) {l : RedisLease}
    (hl : l ∈ s.leases) (hlive : s.live l = true) :
    (l.token, l.validUntil) ∈ s.purged.members := by
  unfold Semaphore.purged
  rw [Zset.mem_zremrangebyscore, h.found_key hl hlive]
  exact ⟨h.holding.held l hl hlive, (Semaphore.live_iff.mp hlive).2⟩

theorem SemaphoreInv.purged_holding (h : SemaphoreInv limit s) :
    Holding s s.purged s.leases where
  held := fun _ hl hlive => h.mem_purged hl hlive
  outlived := fun l hl hlive t ht => h.holding.outlived l hl hlive t (expireAt_purged ht)

theorem SemaphoreInv.bounded (h : SemaphoreInv limit s) : Bounded limit s := by
  constructor
  · -- live leases have distinct tokens, and each token is a member
    have hnodup : ((s.leases.filter s.live).map (·.token)).Nodup :=
      List.Nodup.sublist (List.filter_sublist.map _) h.tokens
    have hsub : (s.leases.filter s.live).map (·.token)
        ⊆ s.key.members.map (·.1) := by
      intro k hk
      obtain ⟨l, hl, rfl⟩ := List.mem_map.mp hk
      obtain ⟨hmem, hlive⟩ := List.mem_filter.mp hl
      exact List.mem_map.mpr ⟨_, h.holding.held l hmem hlive, rfl⟩
    have hle := (hnodup.subperm hsub).length_le
    rw [List.length_map, List.length_map] at hle
    exact hle.trans h.room
  · intro l hl hlive
    unfold renewScript
    dsimp only
    rw [if_neg]
    exact Zset.zscore_isSome.mpr ⟨_, h.mem_purged hl hlive⟩

theorem initial_inv (limit : Nat) : SemaphoreInv limit Semaphore.initial where
  tokens := List.nodup_nil
  drawn := fun l hl => by cases hl
  known := fun e he => by cases he
  distinct := Zset.Distinct.absent
  room := Nat.zero_le _
  holding := { held := by simp [Semaphore.initial], outlived := by simp [Semaphore.initial] }

-- ================================================================ scripts

/-- The set after a grant. -/
def Semaphore.granted (s : Semaphore) (token ttl : Nat) : Zset :=
  (s.purged.zadd (s.clock + ttl) token).pexpire s.clock (ttl * 2)

/-- An acquire is granted while there is room, and else only drops what is
over. -/
theorem acquireScript_eq (s : Semaphore) (token limit ttl : Nat) :
    acquireScript s.clock token limit ttl s.key
      = if limit ≤ s.purged.zcard then (0, s.purged) else (1, s.granted token ttl) := rfl

theorem renewScript_eq (s : Semaphore) (token ttl : Nat) :
    renewScript s.clock token ttl s.key
      = if s.purged.zscore token = none then (0, s.purged)
        else (1, s.granted token ttl) := rfl

theorem members_granted (s : Semaphore) (token ttl : Nat) :
    (s.granted token ttl).members = (s.purged.zadd (s.clock + ttl) token).members :=
  Zset.members_pexpire _ _ _

/-- A grant keeps the other live leases, and the key outlives them if its time
is long enough. -/
theorem SemaphoreInv.granted_holding (h : SemaphoreInv limit s) {l : RedisLease}
    (hl : l ∈ s.leases) (hlive : s.live l = true) (hne : l.token ≠ token)
    (hlong : l.validUntil ≤ s.clock + ttl * 2 + 1) :
    (l.token, l.validUntil) ∈ (s.granted token ttl).members
      ∧ ∀ t, (s.granted token ttl).expireAt = some t → l.validUntil ≤ t + 1 := by
  constructor
  · rw [members_granted, Zset.mem_zadd]
    exact Or.inr ⟨h.mem_purged hl hlive, hne⟩
  · intro t ht
    have hexp : (s.granted token ttl).expireAt = some (s.clock + ttl * 2) :=
      Zset.expireAt_pexpire_zadd _ _ _ _ _
    rw [hexp] at ht
    obtain rfl := Option.some.inj ht
    exact hlong

theorem SemaphoreInv.granted_distinct (h : SemaphoreInv limit s) (token ttl : Nat) :
    (s.granted token ttl).Distinct := by
  show ((s.granted token ttl).members.map (·.1)).Nodup
  rw [members_granted]
  exact (h.distinct.sublist (purged_sublist s)).zadd _ _

theorem SemaphoreInv.granted_known (h : SemaphoreInv limit s) {bound : Nat}
    (hbound : s.nextToken ≤ bound) (htoken : token < bound) (ttl : Nat) :
    ∀ e ∈ (s.granted token ttl).members, e.1 < bound := by
  intro e he
  rw [members_granted, Zset.mem_zadd] at he
  rcases he with rfl | ⟨he, -⟩
  · exact htoken
  · exact (h.known e ((purged_sublist s).subset he)).trans_le hbound

theorem SemaphoreInv.purged_room (h : SemaphoreInv limit s) : s.purged.zcard ≤ limit :=
  (purged_sublist s).length_le.trans h.room

-- ================================================================== steps

/-- What a call of a script comes to: it ran, or it did not. -/
theorem eval_cases {script : Zset → Nat × Zset} {reply : Option Nat} {key : Zset}
    (h : s.eval delivery script = (reply, key)) :
    (delivery = .rolledBack ∧ reply = none ∧ key = s.key)
      ∨ (delivery ≠ .rolledBack ∧ key = (script s.key).2
          ∧ (reply = none ∨ reply = some (script s.key).1)) := by
  unfold Semaphore.eval attempt at h
  cases delivery with
  | committed =>
      obtain ⟨rfl, rfl⟩ := h
      exact Or.inr ⟨by simp, rfl, Or.inr rfl⟩
  | ackLost =>
      obtain ⟨rfl, rfl⟩ := h
      exact Or.inr ⟨by simp, rfl, Or.inl rfl⟩
  | rolledBack =>
      obtain ⟨rfl, rfl⟩ := h
      exact Or.inl ⟨rfl, rfl, rfl⟩

theorem SemaphoreInv.advance (h : SemaphoreInv limit s) (ms : Nat) :
    SemaphoreInv limit { s with clock := s.clock + ms } := by
  have hlive : ∀ {l : RedisLease},
      ({ s with clock := s.clock + ms } : Semaphore).live l = true → s.live l = true := by
    intro l hl
    rw [Semaphore.live_iff] at hl ⊢
    exact ⟨hl.1, by have := hl.2; simp only at this; omega⟩
  exact { h with
    holding := ⟨fun l hl hl' => h.holding.held l hl (hlive hl'),
      fun l hl hl' => h.holding.outlived l hl (hlive hl')⟩ }

/-- Other keys and tokens aside, an acquire that is not granted drops what is
over at most. -/
theorem SemaphoreInv.purge (h : SemaphoreInv limit s) {next : Nat}
    (hnext : s.nextToken ≤ next) :
    SemaphoreInv limit { s with key := s.purged, nextToken := next } where
  tokens := h.tokens
  drawn := fun l hl => (h.drawn l hl).trans_le hnext
  known := fun e he => (h.known e ((purged_sublist s).subset he)).trans_le hnext
  distinct := h.distinct.sublist (purged_sublist s)
  room := h.purged_room
  holding := ⟨h.purged_holding.held, h.purged_holding.outlived⟩

/-- The lease of a granted acquire. -/
def Semaphore.fresh (s : Semaphore) (ttl : Nat) : RedisLease :=
  { token := s.nextToken, ttlMs := ttl, active := true, released := false
    validUntil := s.clock + ttl }

theorem grants_acquire {ttlSeconds : ℚ}
    (hargs : (if limit < 1 then Except.error "limit must be at least 1"
      else ttlMs ttlSeconds) = .ok ttl) (harrived : delivery ≠ .rolledBack)
    (hroom : s.purged.zcard < limit) :
    s.grants limit (.acquire ttlSeconds delivery) = some (s.nextToken, ttl) := by
  unfold Semaphore.grants
  dsimp only
  rw [hargs]
  dsimp only
  rw [acquireScript_eq, if_neg (by omega : ¬ limit ≤ s.purged.zcard)]
  exact if_pos ⟨harrived, rfl⟩

/-- An act that is granted puts the granted set under the key, and keeps the
leases of other tokens. -/
theorem step_of_grants {act : SemaphoreAct} (h : s.grants limit act = some (token, ttl)) :
    (semaphoreStep limit s act).clock = s.clock
      ∧ (semaphoreStep limit s act).key = s.granted token ttl
      ∧ ∀ l ∈ s.leases, l.token ≠ token → l ∈ (semaphoreStep limit s act).leases := by
  have hran : ∀ {delivery : DbOutcome} (script : Zset → Nat × Zset),
      delivery ≠ .rolledBack → (s.eval delivery script).2 = (script s.key).2 := by
    intro delivery script hne
    rcases eval_cases (Prod.ext rfl rfl : s.eval delivery script = (_, _)) with
      ⟨heq, -, -⟩ | ⟨-, heq, -⟩
    · exact absurd heq hne
    · exact heq
  cases act with
  | advance ms => cases h
  | release token delivery => cases h
  | acquire ttlSeconds delivery =>
      unfold Semaphore.grants at h
      unfold semaphoreStep Semaphore.acquire
      dsimp only at h ⊢
      cases hargs : (if limit < 1 then Except.error "limit must be at least 1"
          else ttlMs ttlSeconds) with
      | error e =>
          rw [hargs] at h
          cases h
      | ok t =>
          rw [hargs] at h
          dsimp only at h ⊢
          split at h
          · next hgranted =>
              obtain ⟨rfl, rfl⟩ := Prod.mk.inj (Option.some.inj h)
              have hkey : (acquireScript s.clock s.nextToken limit t s.key).2
                  = s.granted s.nextToken t := by
                have hone := hgranted.2
                rw [acquireScript_eq] at hone ⊢
                split at hone
                · cases hone
                · next hroom => rw [if_neg hroom]
              split
              · refine ⟨rfl, (hran _ hgranted.1).trans hkey, fun l hl _ => ?_⟩
                exact List.mem_append_left _ hl
              · exact ⟨rfl, (hran _ hgranted.1).trans hkey, fun l hl _ => hl⟩
          · cases h
  | renew token' delivery =>
      unfold Semaphore.grants at h
      unfold semaphoreStep Semaphore.renew
      dsimp only at h ⊢
      cases hfind : s.leases.find? fun l => l.token == token' with
      | none =>
          rw [hfind] at h
          cases h
      | some lease =>
          rw [hfind] at h
          dsimp only at h ⊢
          split at h
          · next hgranted =>
              obtain ⟨rfl, rfl⟩ := Prod.mk.inj (Option.some.inj h)
              have hkey : (renewScript s.clock token' lease.ttlMs s.key).2
                  = s.granted token' lease.ttlMs := by
                have hone := hgranted.2.2
                rw [renewScript_eq] at hone ⊢
                split at hone
                · cases hone
                · next hthere => rw [if_neg hthere]
              rw [if_neg (by simp [hgranted.1])]
              refine ⟨rfl, (hran _ hgranted.2.1).trans hkey, fun l hl hne => ?_⟩
              exact List.mem_map.mpr ⟨l, hl, if_neg hne⟩
          · cases h

theorem acquire_cases (s : Semaphore) (limit : Nat) (ttlSeconds : ℚ)
    (delivery : DbOutcome) :
    s.acquire limit ttlSeconds delivery = s
      ∨ s.acquire limit ttlSeconds delivery = { s with nextToken := s.nextToken + 1 }
      ∨ s.acquire limit ttlSeconds delivery
          = { s with key := s.purged, nextToken := s.nextToken + 1 }
      ∨ ∃ ttl leases, s.grants limit (.acquire ttlSeconds delivery) = some (s.nextToken, ttl)
          ∧ s.purged.zcard < limit
          ∧ (leases = s.leases ∨ leases = s.leases ++ [s.fresh ttl])
          ∧ s.acquire limit ttlSeconds delivery
            = { s with key := s.granted s.nextToken ttl, leases
                       nextToken := s.nextToken + 1 } := by
  unfold Semaphore.acquire
  cases hargs : (if limit < 1 then Except.error "limit must be at least 1"
      else ttlMs ttlSeconds) with
  | error e => exact Or.inl rfl
  | ok ttl =>
      right
      dsimp only
      obtain ⟨reply, key, heval⟩ : ∃ reply key, s.eval delivery
          (acquireScript s.clock s.nextToken limit ttl) = (reply, key) := ⟨_, _, rfl⟩
      rw [heval]
      dsimp only
      rcases eval_cases heval with ⟨-, rfl, rfl⟩ | ⟨harrived, rfl, hreply⟩
      · exact Or.inl rfl
      · right
        rw [acquireScript_eq] at hreply ⊢
        by_cases hfull : limit ≤ s.purged.zcard
        · left
          rw [if_pos hfull] at hreply ⊢
          rcases hreply with rfl | rfl <;> rfl
        · right
          have hgrants := grants_acquire hargs harrived (Nat.lt_of_not_le hfull)
          rw [if_neg hfull] at hreply ⊢
          rcases hreply with rfl | rfl
          · exact ⟨ttl, s.leases, hgrants, by omega, Or.inl rfl, rfl⟩
          · exact ⟨ttl, _, hgrants, by omega, Or.inr rfl, rfl⟩

theorem renew_cases (s : Semaphore) (limit token : Nat) (delivery : DbOutcome) :
    s.renew token delivery = s
      ∨ (∃ active key, (key = s.key ∨ key = s.purged) ∧ s.renew token delivery
          = { s with key, leases := s.setLease token fun l => { l with active := active } })
      ∨ ∃ lease active, lease ∈ s.leases ∧ lease.token = token
          ∧ s.grants limit (.renew token delivery) = some (token, lease.ttlMs)
          ∧ (∃ score, (token, score) ∈ s.purged.members)
          ∧ s.renew token delivery
            = { s with
                key := s.granted token lease.ttlMs
                leases := s.setLease token fun l =>
                  { l with active := active, validUntil := s.clock + l.ttlMs } } := by
  unfold Semaphore.renew
  cases hfind : s.leases.find? fun l => l.token == token with
  | none => exact Or.inl rfl
  | some lease =>
      dsimp only
      by_cases hactive : lease.active = false
      · rw [if_pos hactive]
        exact Or.inl rfl
      · right
        rw [if_neg hactive]
        obtain ⟨reply, key, heval⟩ : ∃ reply key, s.eval delivery
            (renewScript s.clock token lease.ttlMs) = (reply, key) := ⟨_, _, rfl⟩
        rw [heval]
        rcases eval_cases heval with ⟨rfl, rfl, rfl⟩ | ⟨harrived, rfl, hreply⟩
        · exact Or.inl ⟨false, _, Or.inl rfl, by simp⟩
        · rw [renewScript_eq]
          by_cases hgone : s.purged.zscore token = none
          · rw [if_pos hgone]
            exact Or.inl ⟨decide (reply = some 1), _, Or.inr rfl, by simp⟩
          · right
            have hlease := List.find?_some hfind
            refine ⟨lease, decide (reply = some 1), List.mem_of_find?_eq_some hfind,
              by simpa using hlease, ?_, Zset.zscore_isSome.mp hgone, ?_⟩
            · simp [Semaphore.grants, hfind, harrived, renewScript_eq, hgone, hactive]
            · simp [harrived, hgone]

theorem release_cases (s : Semaphore) (token : Nat) (delivery : DbOutcome) :
    s.release token delivery = s
      ∨ ∃ key, (key = s.key ∨ key = (releaseScript s.clock token s.key).2)
        ∧ s.release token delivery
          = { s with
              key
              leases := s.setLease token fun l =>
                { l with active := false, released := true } } := by
  unfold Semaphore.release
  cases hfind : s.leases.find? fun l => l.token == token with
  | none => exact Or.inl rfl
  | some lease =>
      dsimp only
      by_cases hactive : lease.active = false
      · rw [if_pos hactive]
        exact Or.inl rfl
      · right
        rw [if_neg hactive]
        obtain ⟨reply, key, heval⟩ : ∃ reply key, s.eval delivery
            (releaseScript s.clock token) = (reply, key) := ⟨_, _, rfl⟩
        rw [heval]
        rcases eval_cases heval with ⟨-, -, rfl⟩ | ⟨-, rfl, -⟩
        · exact ⟨_, Or.inl rfl, rfl⟩
        · exact ⟨_, Or.inr rfl, rfl⟩

-- ============================================================ invariance

/-- A rewrite of one lease keeps the tokens. -/
theorem map_token_setLease {f : RedisLease → RedisLease} (hf : ∀ l, (f l).token = l.token) :
    (s.setLease token f).map (·.token) = s.leases.map (·.token) := by
  unfold Semaphore.setLease
  rw [List.map_map]
  apply List.map_congr_left
  intro l _
  show (if l.token = token then f l else l).token = l.token
  split
  · exact hf l
  · rfl

theorem mem_setLease {f : RedisLease → RedisLease} {l' : RedisLease}
    (h : l' ∈ s.setLease token f) :
    ∃ l ∈ s.leases, (l.token = token ∧ l' = f l) ∨ (l.token ≠ token ∧ l' = l) := by
  obtain ⟨l, hl, rfl⟩ := List.mem_map.mp h
  refine ⟨l, hl, ?_⟩
  by_cases heq : l.token = token
  · rw [if_pos heq]
    exact Or.inl ⟨heq, rfl⟩
  · rw [if_neg heq]
    exact Or.inr ⟨heq, rfl⟩

/-- The invariant after a call that rewrites the leases of one token. -/
theorem SemaphoreInv.set (h : SemaphoreInv limit s) {key : Zset}
    {f : RedisLease → RedisLease} (hf : ∀ l, (f l).token = l.token)
    (hknown : ∀ e ∈ key.members, e.1 < s.nextToken) (hdistinct : key.Distinct)
    (hroom : key.zcard ≤ limit) (hholding : Holding s key (s.setLease token f)) :
    SemaphoreInv limit { s with key, leases := s.setLease token f } where
  tokens := by
    show ((s.setLease token f).map (·.token)).Nodup
    rw [map_token_setLease hf]
    exact h.tokens
  drawn := by
    intro l' hl'
    obtain ⟨l, hl, ⟨-, rfl⟩ | ⟨-, rfl⟩⟩ := mem_setLease hl'
    · rw [hf]
      exact h.drawn l hl
    · exact h.drawn l' hl
  known := hknown
  distinct := hdistinct
  room := hroom
  holding := ⟨hholding.held, hholding.outlived⟩

theorem SemaphoreInv.acquire (h : SemaphoreInv limit s) (ttlSeconds : ℚ)
    (hgood : Outlives limit s (.acquire ttlSeconds delivery)) :
    SemaphoreInv limit (s.acquire limit ttlSeconds delivery) := by
  obtain heq | heq | heq | ⟨ttl, leases, hgrants, hroom, hleases, heq⟩ :=
    acquire_cases s limit ttlSeconds delivery
  · rw [heq]
    exact h
  · rw [heq]
    exact { h with
      drawn := fun l hl => Nat.lt_succ_of_lt (h.drawn l hl)
      known := fun e he => Nat.lt_succ_of_lt (h.known e he)
      holding := ⟨h.holding.held, h.holding.outlived⟩ }
  · rw [heq]
    exact h.purge (Nat.le_succ _)
  · rw [heq]
    have hexp : (s.granted s.nextToken ttl).expireAt = some (s.clock + ttl * 2) :=
      Zset.expireAt_pexpire_zadd _ _ _ _ _
    -- a lease that was there before, or the new one
    have hcases : ∀ l ∈ leases, l ∈ s.leases ∨ l = s.fresh ttl := by
      intro l hl
      rcases hleases with rfl | rfl
      · exact Or.inl hl
      · simpa using hl
    have hold : ∀ l ∈ leases, s.live l = true →
        (l.token, l.validUntil) ∈ (s.granted s.nextToken ttl).members
          ∧ ∀ t, (s.granted s.nextToken ttl).expireAt = some t → l.validUntil ≤ t + 1 := by
      intro l hl hlive
      rcases hcases l hl with hl | rfl
      · have hne : l.token ≠ s.nextToken := (h.drawn l hl).ne
        exact h.granted_holding hl hlive hne (hgood _ hgrants l hl hlive hne)
      · constructor
        · rw [members_granted, Zset.mem_zadd]
          exact Or.inl rfl
        · intro t ht
          obtain rfl := Option.some.inj (hexp.symm.trans ht)
          show s.clock + ttl ≤ _
          omega
    refine
      { tokens := ?_, drawn := ?_
        known := h.granted_known (Nat.le_succ _) (Nat.lt_succ_self _) ttl
        distinct := h.granted_distinct _ _, room := ?_
        holding := ⟨fun l hl hlive => (hold l hl hlive).1,
          fun l hl hlive => (hold l hl hlive).2⟩ }
    · rcases hleases with rfl | rfl
      · exact h.tokens
      · show ((s.leases ++ [s.fresh ttl]).map (·.token)).Nodup
        rw [List.map_append, List.nodup_append]
        refine ⟨h.tokens, List.nodup_singleton _, ?_⟩
        intro a ha b hb
        obtain ⟨l, hl, rfl⟩ := List.mem_map.mp ha
        obtain rfl : b = s.nextToken := by simpa [Semaphore.fresh] using hb
        exact (h.drawn l hl).ne
    · intro l hl
      rcases hcases l hl with hl | rfl
      · exact Nat.lt_succ_of_lt (h.drawn l hl)
      · exact Nat.lt_succ_self _
    · have hcard := Zset.zcard_zadd_le s.purged (s.clock + ttl) s.nextToken
      show (s.granted s.nextToken ttl).members.length ≤ limit
      rw [members_granted]
      show Zset.zcard _ ≤ limit
      omega

theorem SemaphoreInv.renew (h : SemaphoreInv limit s)
    (hgood : Outlives limit s (.renew token delivery)) :
    SemaphoreInv limit (s.renew token delivery) := by
  obtain heq | ⟨active, key, hkey, heq⟩ | ⟨lease, active, hlease, htoken, hgrants, hin, heq⟩ :=
    renew_cases s limit token delivery
  · rw [heq]
    exact h
  · rw [heq]
    -- only `active` changes, which no lease lives by
    have hold : ∀ l' ∈ s.setLease token fun l => { l with active := active },
        s.live l' = true → ∃ l ∈ s.leases, s.live l = true
          ∧ l'.token = l.token ∧ l'.validUntil = l.validUntil := by
      intro l' hl' hlive
      obtain ⟨l, hl, ⟨-, rfl⟩ | ⟨-, rfl⟩⟩ := mem_setLease hl'
      · exact ⟨l, hl, hlive, rfl, rfl⟩
      · exact ⟨l', hl, hlive, rfl, rfl⟩
    have hholding : Holding s key (s.setLease token fun l => { l with active := active }) := by
      have hbase : Holding s key s.leases := by
        rcases hkey with rfl | rfl
        · exact h.holding
        · exact h.purged_holding
      refine ⟨fun l' hl' hlive => ?_, fun l' hl' hlive => ?_⟩
      · obtain ⟨l, hl, hl₁, htok, hval⟩ := hold l' hl' hlive
        rw [htok, hval]
        exact hbase.held l hl hl₁
      · obtain ⟨l, hl, hl₁, -, hval⟩ := hold l' hl' hlive
        rw [hval]
        exact hbase.outlived l hl hl₁
    rcases hkey with rfl | rfl
    · exact h.set (fun _ => rfl) h.known h.distinct h.room hholding
    · exact h.set (fun _ => rfl)
        (fun e he => h.known e ((purged_sublist s).subset he))
        (h.distinct.sublist (purged_sublist s)) h.purged_room hholding
  · rw [heq]
    have hexp : (s.granted token lease.ttlMs).expireAt = some (s.clock + lease.ttlMs * 2) :=
      Zset.expireAt_pexpire_zadd _ _ _ _ _
    have hunique : ∀ l ∈ s.leases, l.token = token → l = lease := by
      intro l hl heq
      exact List.inj_on_of_nodup_map h.tokens hl hlease (heq.trans htoken.symm)
    have hold : ∀ l' ∈ s.setLease token fun l =>
          { l with active := active, validUntil := s.clock + l.ttlMs },
        s.live l' = true →
        (l'.token, l'.validUntil) ∈ (s.granted token lease.ttlMs).members
          ∧ ∀ t, (s.granted token lease.ttlMs).expireAt = some t → l'.validUntil ≤ t + 1 := by
      intro l' hl' hlive
      obtain ⟨l, hl, ⟨hself, rfl⟩ | ⟨hne, rfl⟩⟩ := mem_setLease hl'
      · obtain rfl := hunique l hl hself
        constructor
        · rw [members_granted, Zset.mem_zadd]
          left
          show (l.token, s.clock + l.ttlMs) = (token, s.clock + l.ttlMs)
          rw [hself]
        · intro t ht
          obtain rfl := Option.some.inj (hexp.symm.trans ht)
          show s.clock + l.ttlMs ≤ _
          omega
      · exact h.granted_holding hl hlive hne (hgood _ hgrants l' hl hlive hne)
    have hroom : (s.granted token lease.ttlMs).zcard ≤ limit := by
      show (s.granted token lease.ttlMs).members.length ≤ limit
      rw [members_granted]
      exact (Zset.zcard_zadd_of_mem hin _).trans h.purged_room
    have hdrawn : token < s.nextToken := htoken ▸ h.drawn lease hlease
    exact h.set (fun _ => rfl) (h.granted_known le_rfl hdrawn _) (h.granted_distinct _ _) hroom
      ⟨fun l hl hlive => (hold l hl hlive).1, fun l hl hlive => (hold l hl hlive).2⟩

theorem members_releaseScript (now token : Nat) (z : Zset) :
    (releaseScript now token z).2.members = ((z.found now).zrem token).2.members := by
  unfold releaseScript
  dsimp only
  split
  · next hempty => exact (List.eq_nil_of_length_eq_zero hempty).symm
  · rfl

theorem SemaphoreInv.release (h : SemaphoreInv limit s) (token : Nat)
    (delivery : DbOutcome) : SemaphoreInv limit (s.release token delivery) := by
  obtain heq | ⟨key, hkey, heq⟩ := release_cases s token delivery
  · rw [heq]
    exact h
  · rw [heq]
    -- the lease itself is no longer live
    have hold : ∀ l ∈ s.setLease token fun l => { l with active := false, released := true },
        s.live l = true → l ∈ s.leases ∧ l.token ≠ token := by
      intro l' hl' hlive
      obtain ⟨l, hl, ⟨-, rfl⟩ | ⟨hne, rfl⟩⟩ := mem_setLease hl'
      · simp [Semaphore.live] at hlive
      · exact ⟨hl, hne⟩
    rcases hkey with rfl | rfl
    · exact h.set (fun _ => rfl) h.known h.distinct h.room
        ⟨fun l hl hlive => h.holding.held l (hold l hl hlive).1 hlive,
          fun l hl hlive => h.holding.outlived l (hold l hl hlive).1 hlive⟩
    · have hmembers := members_releaseScript s.clock token s.key
      have hsub : (releaseScript s.clock token s.key).2.members.Sublist s.key.members := by
        rw [hmembers]
        exact (Zset.zrem_sublist _ _).trans (Zset.found_sublist _ _)
      have hexpire : ∀ t, (releaseScript s.clock token s.key).2.expireAt = some t →
          s.key.expireAt = some t := by
        intro t ht
        unfold releaseScript at ht
        dsimp only at ht
        split at ht
        · cases ht
        · exact Zset.expireAt_found (Zset.expireAt_withMembers ht)
      refine h.set (fun _ => rfl) (fun e he => h.known e (hsub.subset he))
        (h.distinct.sublist hsub) (hsub.length_le.trans h.room) ⟨?_, ?_⟩
      · intro l hl hlive
        obtain ⟨hmem, hne⟩ := hold l hl hlive
        rw [hmembers, Zset.mem_zrem, h.found_key hmem hlive]
        exact ⟨h.holding.held l hmem hlive, hne⟩
      · intro l hl hlive t ht
        exact h.holding.outlived l (hold l hl hlive).1 hlive t (hexpire t ht)

theorem SemaphoreInv.step (h : SemaphoreInv limit s) {act : SemaphoreAct}
    (hgood : Outlives limit s act) : SemaphoreInv limit (semaphoreStep limit s act) := by
  cases act with
  | advance ms => exact h.advance ms
  | acquire ttlSeconds delivery => exact h.acquire ttlSeconds hgood
  | renew token delivery => exact h.renew hgood
  | release token delivery => exact h.release token delivery

/-- A grant with too little time: once the key is gone, a lease that is still
good cannot be renewed. -/
theorem unbounded_of_short_grant {act : SemaphoreAct}
    (hbad : ¬ Outlives limit s act) :
    ∃ ms, ¬ Bounded limit (run (semaphoreStep limit) s [act, .advance ms]) := by
  unfold Outlives at hbad
  push Not at hbad
  obtain ⟨⟨token, ttl⟩, hgrants, l, hl, hlive, hne, hlong⟩ := hbad
  obtain ⟨hclock, hkey, hleases⟩ := step_of_grants hgrants
  refine ⟨ttl * 2 + 1, fun hbounded => ?_⟩
  have hrun : run (semaphoreStep limit) s [act, .advance (ttl * 2 + 1)]
      = { semaphoreStep limit s act with clock := s.clock + (ttl * 2 + 1) } := by
    rw [run_cons, run_cons, run_nil, ← hclock]
    rfl
  rw [hrun] at hbounded
  have hstill := hbounded.renewable l (hleases l hl hne) (by
    rw [Semaphore.live_iff] at hlive ⊢
    exact ⟨hlive.1, by dsimp only at hlong ⊢; omega⟩)
  -- but the key is gone by then
  have hexp : (semaphoreStep limit s act).key.expireAt = some (s.clock + ttl * 2) := by
    rw [hkey]
    exact Zset.expireAt_pexpire_zadd _ _ _ _ _
  unfold renewScript at hstill
  dsimp only at hstill
  rw [Zset.found_expired hexp (by omega)] at hstill
  cases hstill

-- ================================================================= bound

/-- In every run in which no grant gives the key less time than a live lease
still has, at most `limit` leases are live and each can be renewed; and after
such a run the condition on a call is exact: the property survives the call
and every wait after it if and only if the call meets it. -/
theorem semaphore_bound (limit : Nat) (acts : List SemaphoreAct)
    (h : RunAll (semaphoreStep limit) (Outlives limit) Semaphore.initial acts) :
    Bounded limit (run (semaphoreStep limit) Semaphore.initial acts)
      ∧ ∀ act, Outlives limit (run (semaphoreStep limit) Semaphore.initial acts) act
          ↔ ∀ ms, Bounded limit
            (run (semaphoreStep limit) Semaphore.initial (acts ++ [act, .advance ms])) := by
  have hinv := run_invariant_of (fun s act hgood hs => SemaphoreInv.step hs hgood) h
    (initial_inv limit)
  refine ⟨hinv.bounded, fun act => ⟨fun hgood ms => ?_, fun hall => ?_⟩⟩
  · rw [run_append]
    exact ((hinv.step hgood).advance ms).bounded
  · by_contra hbad
    obtain ⟨ms, hms⟩ := unbounded_of_short_grant hbad
    have hbound := hall ms
    rw [run_append] at hbound
    exact hms hbound

/-- Two leases of one hour and a short one, in an order that is safe. -/
def sampleSafe : List SemaphoreAct :=
  [.acquire 1 .committed, .acquire 3600 .committed, .advance 500, .renew 1 .committed,
    .acquire 3600 .committed, .advance 1501]

theorem semaphore_bound_sample :
    Bounded 2 (run (semaphoreStep 2) Semaphore.initial sampleSafe) :=
  (semaphore_bound 2 sampleSafe (by decide +kernel)).1

/-- A lease of an hour, a lease of a second, and two more leases once the key
the second one shortened is gone: three holders where two are allowed, and
the first can no longer renew. -/
theorem semaphore_overrun :
    let s := run (semaphoreStep 2) Semaphore.initial
      [.acquire 3600 .committed, .acquire 1 .committed, .advance 2001,
        .acquire 3600 .committed, .acquire 3600 .committed]
    (s.leases.filter s.live).length = 3
      ∧ ∃ l ∈ s.leases, s.live l = true
        ∧ (renewScript s.clock l.token l.ttlMs s.key).1 = 0 := by
  decide +kernel

end Mosaic.Infrastructure
