/-
How long a session lasts.

# Two clocks

A session has an absolute end, `expires_at`, and an idle one: `last_seen_at`
plus the idle time. The stamp is written at most once in a touch interval,
so it lags behind the calls that used the session, by less than that
interval (`Live`). Both clocks are read by `current_auth` and by
`list_user_sessions`, and either may write `expired`.

# The law

`Lasting`: no call succeeds past the absolute end or after an idle gap
counted from the last call that did; calls that come often enough all
succeed until the absolute end; a session that has ended stays as it is.
`session_lasting` proves it of the session any act opened, along every run
whose clock does not go back.
-/
import Mosaic.Auth.World

namespace Mosaic.Auth

open Lib

variable {cfg : Config} {settings : AuthSettings} {s : Store} {w : World} {a : Act}
  {id now : Nat} {admits : Bool} {row row' : AuthSession} {t t' : Table AuthSession}

-- ============================================================ current_auth

/-- The `WHERE` of `current_auth`. -/
def AuthSession.current (settings : AuthSettings) (now : Nat) (admits : Bool)
    (row : AuthSession) : Bool :=
  row.status == .active && decide (now < row.expiresAt)
    && row.lastSeenAt.any (now < · + settings.sessionIdleTtl) && admits

/-- The session `current_auth` returns. -/
def currentSession (settings : AuthSettings) (now sessionId : Nat) (admits : Bool)
    (s : Store) : Option AuthSession :=
  (s.sessions.get sessionId).filter (·.current settings now admits)

/-- What `current_auth` writes to the row. -/
def AuthSession.visit (settings : AuthSettings) (now : Nat) (admits : Bool)
    (row : AuthSession) : AuthSession :=
  if row.current settings now admits then
    if row.lastSeenAt.any (· + settings.sessionTouchInterval ≤ now) then
      { row with lastSeenAt := some now }
    else row
  else row.expireStale settings now

theorem current_iff : row.current settings now admits = true ↔
    row.status = .active ∧ now < row.expiresAt
      ∧ row.lastSeenAt.any (now < · + settings.sessionIdleTtl) = true ∧ admits = true := by
  simp [AuthSession.current, and_assoc]

theorem currentAuth_eq (settings : AuthSettings) (now sessionId : Nat) (admits : Bool)
    (s : Store) : currentAuth settings now sessionId admits s
      = { s with sessions := s.sessions.modify sessionId (·.visit settings now admits) } := by
  unfold currentAuth
  congr 2
  funext row
  unfold AuthSession.visit
  exact if_congr current_iff.symm rfl rfl

-- ================================================================ history

/-- The clock of a transaction. -/
def Act.time : Act → Nat
  | .register now _ _ _ => now
  | .operatorCreate now _ _ => now
  | .operatorReset _ now _ _ => now
  | .authenticate _ now _ _ _ _ => now
  | .createSession _ now _ => now
  | .changePassword now _ _ _ _ _ _ => now
  | .revokeSession now _ => now
  | .revokeUserSession now _ _ _ => now
  | .currentAuth now _ _ => now
  | .listUserSessions now _ _ => now

/-- The clock does not go back. -/
def Forward : Nat → List Act → Prop
  | _, [] => True
  | t, a :: as => t ≤ a.time ∧ Forward a.time as

instance Forward.decidable : ∀ t as, Decidable (Forward t as)
  | _, [] => isTrue trivial
  | t, a :: as =>
      have := Forward.decidable a.time as
      inferInstanceAs (Decidable (t ≤ a.time ∧ Forward a.time as))

/-- The act is a `current_auth` of the session, and succeeds. -/
def Act.succeeds (cfg : Config) (id : Nat) (w : World) : Act → Bool
  | .currentAuth now sessionId admits => sessionId == id
      && (currentSession cfg.settings now sessionId admits w.store).isSome
  | _ => false

/-- When the session was last used, `last` being when it was before the run. -/
def lastSuccess (cfg : Config) (id : Nat) : World → Nat → List Act → Nat
  | _, last, [] => last
  | w, last, a :: as =>
      lastSuccess cfg id (authStep cfg w a) (if a.succeeds cfg id w then a.time else last) as

/-- Every `current_auth` of the session finds the rows it joins active, and comes
within the idle time less the touch interval of the one before. -/
def Steady (settings : AuthSettings) (id : Nat) : Nat → List Act → Prop
  | _, [] => True
  | last, .currentAuth now sessionId admits :: as =>
      if sessionId = id then
        admits = true ∧ now + settings.sessionTouchInterval ≤ last + settings.sessionIdleTtl
          ∧ Steady settings id now as
      else Steady settings id last as
  | last, _ :: as => Steady settings id last as

/-- The law of a session opened at `opened`, along a run from `w`. -/
structure Lasting (cfg : Config) (w : World) (id opened expiresAt : Nat) (as : List Act)
    (now : Nat) (admits : Bool) : Prop where
  bounded : (Act.currentAuth now id admits).succeeds cfg id (run (authStep cfg) w as) = true →
    now < expiresAt ∧ now < lastSuccess cfg id w opened as + cfg.settings.sessionIdleTtl
  kept : Steady cfg.settings id opened (as ++ [.currentAuth now id admits]) →
    (∀ row, (run (authStep cfg) w as).store.sessions.get id = some row →
      row.status ≠ .revoked) →
    now < expiresAt →
    (Act.currentAuth now id admits).succeeds cfg id (run (authStep cfg) w as) = true
  absorbing : ∀ row, (run (authStep cfg) w as).store.sessions.get id = some row →
    row.status ≠ .active → ∀ bs,
      (run (authStep cfg) w (as ++ bs)).store.sessions.get id = some row
        ∧ ∀ b : Act, b.succeeds cfg id (run (authStep cfg) w (as ++ bs)) = false

-- ================================================================ the rows

/-- The act is a `current_auth` of the session. -/
def Act.Visits (id : Nat) : Act → Prop
  | .currentAuth _ sessionId _ => sessionId = id
  | _ => False

/-- What one act does to the row of a session. -/
inductive Touched (settings : AuthSettings) (id : Nat) (a : Act) (row : AuthSession) :
    AuthSession → Prop
  | same (other : ¬ a.Visits id) : Touched settings id a row row
  | visited (now : Nat) (admits : Bool) (h : a = .currentAuth now id admits) :
      Touched settings id a row (row.visit settings now admits)
  | swept (other : ¬ a.Visits id) : Touched settings id a row (row.expireStale settings a.time)
  | revoked (other : ¬ a.Visits id) (active : row.status = .active) :
      Touched settings id a row { row with status := .revoked, revokedAt := some a.time }

/-- A session as it is opened. -/
structure Opens (settings : AuthSettings) (now : Nat) (row : AuthSession) : Prop where
  status : row.status = .active
  expiresAt : row.expiresAt = now + settings.sessionTtl
  lastSeenAt : row.lastSeenAt = some now

/-- What one act does to the sessions. -/
structure Touches (settings : AuthSettings) (a : Act) (t t' : Table AuthSession) : Prop where
  old : ∀ id row, t.get id = some row →
    ∃ row', t'.get id = some row' ∧ Touched settings id a row row'
  new : ∀ id row, t.get id = none → t'.get id = some row → Opens settings a.time row

theorem touches_refl (hother : ∀ id, ¬ a.Visits id) : Touches settings a t t :=
  ⟨fun id row h => ⟨row, h, .same (hother id)⟩, fun _ _ h h' => by rw [h] at h'; cases h'⟩

theorem touches_modify {i : Nat} {f : AuthSession → AuthSession}
    (hother : ∀ id, id ≠ i → ¬ a.Visits id) (hf : ∀ row, Touched settings i a row (f row)) :
    Touches settings a t (t.modify i f) where
  old := by
    intro id row hrow
    rw [Table.get_modify]
    by_cases he : i = id
    · subst he
      exact ⟨f row, by rw [if_pos rfl, hrow]; rfl, hf row⟩
    · exact ⟨row, by rw [if_neg he, hrow], .same (hother id fun h => he h.symm)⟩
  new := by
    intro id row hnone hrow
    rcases Table.get_modify_cases hrow with ⟨rfl, r, hr, -⟩ | ⟨-, hr⟩
    · rw [hnone] at hr
      cases hr
    · rw [hnone] at hr
      cases hr

theorem touches_update {f : AuthSession → AuthSession}
    (hf : ∀ id row, Touched settings id a row (f row)) :
    Touches settings a t (t.update f) where
  old := by
    intro id row hrow
    exact ⟨f row, by rw [Table.get_update, hrow]; rfl, hf id row⟩
  new := by
    intro id row hnone hrow
    rw [Table.get_update, hnone] at hrow
    cases hrow

theorem Touches.insert (h : Touches settings a t t') (hrow : Opens settings a.time row) :
    Touches settings a t (t'.insert row) where
  old := by
    intro id r hr
    obtain ⟨r', hr', htouched⟩ := h.old id r hr
    exact ⟨r', Table.get_insert_of_some hr' row, htouched⟩
  new := by
    intro id r hnone hr
    rcases Table.get_insert_cases hr with ⟨-, rfl⟩ | hr
    · exact hrow
    · exact h.new id r hnone hr

/-- The one rewrite every revocation makes, where its `WHERE` holds. -/
theorem touched_revoke (c : AuthSession → Prop) [DecidablePred c] (hother : ¬ a.Visits id)
    (hc : ∀ row, c row → row.status = .active) (row : AuthSession) :
    Touched settings id a row
      (if c row then { row with status := .revoked, revokedAt := some a.time } else row) := by
  by_cases h : c row
  · rw [if_pos h]
    exact .revoked hother (hc row h)
  · rw [if_neg h]
    exact .same hother

theorem touches_revokeAll (userId : Nat) (s : Store) (hother : ∀ id, ¬ a.Visits id) :
    Touches settings a s.sessions (revokeAll a.time userId s).sessions :=
  touches_update fun id row =>
    touched_revoke (fun row => row.userId = userId ∧ row.status = .active) (hother id)
      (fun _ h => h.2) row

theorem opens_insertSession (settings : AuthSettings) (now userId tenantId verified : Nat) :
    Opens settings now
      { userId, tenantId, status := .active, expiresAt := now + settings.sessionTtl
        lastSeenAt := some now, revokedAt := none, verified } :=
  ⟨rfl, rfl, rfl⟩

/-- A transaction that raises touches nothing. -/
theorem commit_touches {result : Except AuthError Store} (hother : ∀ id, ¬ a.Visits id)
    (h : ∀ s, result = .ok s → Touches settings a w.store.sessions s.sessions) :
    Touches settings a w.store.sessions (w.commit result).store.sessions := by
  cases result with
  | error e => exact touches_refl hother
  | ok s => exact h s rfl

theorem finish_touches (cfg : Config) (w : World) (login now : Nat) (db : DbOutcome) :
    Touches cfg.settings (.createSession login now db) w.store.sessions
      (w.finish cfg login now db).store.sessions := by
  have hrefl : Touches cfg.settings (.createSession login now db) w.store.sessions
      w.store.sessions := touches_refl fun _ h => h
  unfold World.finish
  split
  · exact hrefl
  · next l _ =>
    dsimp only
    split
    · exact hrefl
    · next store hstore =>
      split
      · exact hrefl
      · show Touches _ _ _ store.sessions
        unfold createSession at hstore
        split at hstore
        · simp only [bind_eq_ok, pure_eq_ok] at hstore
          obtain ⟨-, -, -, -, rfl⟩ := hstore
          exact hrefl.insert (opens_insertSession ..)
        · rw [pure_eq_ok] at hstore
          subst hstore
          exact hrefl.insert (opens_insertSession ..)

theorem authStep_touches (cfg : Config) (w : World) (a : Act) :
    Touches cfg.settings a w.store.sessions (authStep cfg w a).store.sessions := by
  cases a with
  | register now tenantId email passwordHash =>
      refine commit_touches (fun _ h => h) fun s hs => ?_
      unfold register at hs
      simp only [bind_eq_ok, pure_eq_ok] at hs
      obtain ⟨-, -, rfl⟩ := hs
      refine Touches.insert (touches_refl ?_) (opens_insertSession ..)
      exact fun _ h => h
  | operatorCreate now email passwordHash =>
      refine commit_touches (fun _ h => h) fun s hs => ?_
      unfold operatorCreate at hs
      simp only [bind_eq_ok, pure_eq_ok] at hs
      obtain ⟨-, -, rfl⟩ := hs
      exact touches_refl fun _ h => h
  | operatorReset directory now email passwordHash =>
      refine commit_touches (fun _ h => h) fun s hs => ?_
      unfold operatorReset at hs
      simp only [bind_eq_ok, pure_eq_ok] at hs
      obtain ⟨⟨user, -⟩, -, -, -, rfl⟩ := hs
      refine touches_revokeAll user { w.store with } ?_
      exact fun _ h => h
  | authenticate directory now salt account password tenantSlug =>
      have hsame : (authStep cfg w (.authenticate directory now salt account password
          tenantSlug)).store.sessions = w.store.sessions := by
        simp only [authStep, Auth.authenticate]
        cases w.store.users.find fun u => u.email == account with
        | none => rfl
        | some e =>
            dsimp only
            split <;> rfl
      rw [hsame]
      exact touches_refl fun _ h => h
  | createSession login now db => exact finish_touches cfg w login now db
  | changePassword now salt userId tenantId sessionId currentPassword newPassword =>
      refine commit_touches (fun _ h => h) fun s hs => ?_
      unfold changePassword at hs
      simp only [bind_eq_ok, pure_eq_ok] at hs
      obtain ⟨-, -, -, -, -, -, -, -, rfl⟩ := hs
      refine Touches.insert (touches_revokeAll userId { w.store with } ?_)
        (opens_insertSession ..)
      exact fun _ h => h
  | revokeSession now sessionId =>
      refine touches_modify (fun _ _ h => h) fun row => ?_
      exact touched_revoke (fun row => row.status = .active) id (fun _ h => h) row
  | revokeUserSession now tenantId userId sessionId =>
      refine touches_modify (fun _ _ h => h) fun row => ?_
      exact touched_revoke
        (fun row => row.tenantId = tenantId ∧ row.userId = userId ∧ row.status = .active)
        id (fun _ h => h.2.2) row
  | currentAuth now sessionId admits =>
      simp only [authStep, currentAuth_eq]
      exact touches_modify (fun _ hne h => hne h.symm) fun row => .visited now admits rfl
  | listUserSessions now tenantId userId =>
      refine touches_update fun id row => ?_
      split
      · exact .swept fun h => h
      · exact .same fun h => h

-- ================================================================= ended

theorem expireStale_of_ended (h : row.status ≠ .active) :
    row.expireStale settings now = row :=
  if_neg fun hc => h hc.1

/-- A session that has ended is left as it is. -/
theorem Touched.ended (h : Touched settings id a row row') (hended : row.status ≠ .active) :
    row' = row := by
  cases h with
  | same hother => rfl
  | visited now admits ha =>
      unfold AuthSession.visit
      rw [if_neg fun hc => hended (current_iff.mp hc).1]
      exact expireStale_of_ended hended
  | swept hother => exact expireStale_of_ended hended
  | revoked hother hactive => exact absurd hactive hended

theorem run_ended (hrow : w.store.sessions.get id = some row) (hended : row.status ≠ .active)
    (as : List Act) : (run (authStep cfg) w as).store.sessions.get id = some row := by
  have hstep : ∀ w a, w.store.sessions.get id = some row →
      (authStep cfg w a).store.sessions.get id = some row := by
    intro w a hget
    obtain ⟨row', hrow', htouched⟩ := (authStep_touches cfg w a).old id row hget
    rw [hrow', htouched.ended hended]
  exact run_invariant hstep hrow as

theorem succeeds_iff {sessionId : Nat} (hrow : w.store.sessions.get id = some row) :
    (Act.currentAuth now sessionId admits).succeeds cfg id w = true
      ↔ sessionId = id ∧ row.current cfg.settings now admits = true := by
  unfold Act.succeeds currentSession
  rw [Bool.and_eq_true, beq_iff_eq, Option.isSome_iff_exists]
  refine and_congr_right fun he => ?_
  subst he
  rw [hrow]
  simp [Option.filter_eq_some_iff]

/-- The only acts that succeed are visits, of an active session. -/
theorem succeeds_visit (hrow : w.store.sessions.get id = some row)
    (h : a.succeeds cfg id w = true) :
    ∃ now admits, a = .currentAuth now id admits
      ∧ row.current cfg.settings now admits = true := by
  cases a with
  | currentAuth now sessionId admits =>
      obtain ⟨rfl, hcurrent⟩ := (succeeds_iff hrow).mp h
      exact ⟨now, admits, rfl, hcurrent⟩
  | _ => cases h

theorem ended_fails (hrow : w.store.sessions.get id = some row)
    (hended : row.status ≠ .active) (a : Act) : a.succeeds cfg id w = false := by
  rw [Bool.eq_false_iff]
  intro h
  obtain ⟨now, admits, -, hcurrent⟩ := succeeds_visit hrow h
  exact hended (current_iff.mp hcurrent).1

-- =============================================================== bounded

/-- The stamp of an active session is not ahead of its last use. -/
structure Lagging (expiresAt last : Nat) (row : AuthSession) : Prop where
  expiresAt : row.expiresAt = expiresAt
  seen : row.status = .active → ∃ t, row.lastSeenAt = some t ∧ t ≤ last

variable {expiresAt last clock : Nat}

theorem Lagging.expireStale (h : Lagging expiresAt last row) :
    Lagging expiresAt last (row.expireStale settings now) := by
  unfold AuthSession.expireStale
  split
  · exact ⟨h.expiresAt, by simp⟩
  · exact h

theorem Lagging.later (h : Lagging expiresAt last row) (hle : last ≤ now) :
    Lagging expiresAt now row := by
  refine ⟨h.expiresAt, fun hactive => ?_⟩
  obtain ⟨t, ht, hseen⟩ := h.seen hactive
  exact ⟨t, ht, by omega⟩

/-- A call that succeeds is the last use from then on; any other leaves the
stamp, or ends the session. -/
theorem Lagging.visit (h : Lagging expiresAt last row) (hle : last ≤ now) :
    Lagging expiresAt (if row.current settings now admits then now else last)
      (row.visit settings now admits) := by
  unfold AuthSession.visit
  by_cases hcurrent : row.current settings now admits = true
  · rw [if_pos hcurrent, if_pos hcurrent]
    split
    · exact ⟨h.expiresAt, fun _ => ⟨now, rfl, le_refl now⟩⟩
    · exact h.later hle
  · rw [if_neg hcurrent, if_neg hcurrent]
    exact h.expireStale

theorem Lagging.step (h : Lagging expiresAt last row)
    (hrow : w.store.sessions.get id = some row) (hle : last ≤ a.time)
    (htouched : Touched cfg.settings id a row row') :
    Lagging expiresAt (if a.succeeds cfg id w then a.time else last) row' := by
  have hfails : ¬ a.Visits id → a.succeeds cfg id w = false := by
    intro hother
    rw [Bool.eq_false_iff]
    intro hs
    obtain ⟨now, admits, rfl, -⟩ := succeeds_visit hrow hs
    exact hother rfl
  cases htouched with
  | same hother =>
      rw [hfails hother]
      exact h
  | visited now admits ha =>
      subst ha
      have hsucceeds : (Act.currentAuth now id admits).succeeds cfg id w
          = row.current cfg.settings now admits := by
        rw [Bool.eq_iff_iff, succeeds_iff hrow]
        simp
      rw [hsucceeds]
      exact h.visit hle
  | swept hother =>
      rw [hfails hother]
      exact h.expireStale
  | revoked hother hactive =>
      rw [hfails hother]
      exact ⟨h.expiresAt, by simp⟩

/-- Along a run the stamp stays behind the last use. -/
theorem Lagging.run (h : Lagging expiresAt last row)
    (hrow : w.store.sessions.get id = some row) (hle : last ≤ clock) {as : List Act}
    (hforward : Forward clock (as ++ [.currentAuth now id admits])) :
    ∃ row', (Lib.run (authStep cfg) w as).store.sessions.get id = some row'
      ∧ Lagging expiresAt (lastSuccess cfg id w last as) row'
      ∧ lastSuccess cfg id w last as ≤ now := by
  induction as generalizing w row last clock with
  | nil => exact ⟨row, hrow, h, hle.trans hforward.1⟩
  | cons a as ih =>
      have hlast : last ≤ a.time := hle.trans hforward.1
      obtain ⟨row', hrow', htouched⟩ := (authStep_touches cfg w a).old id row hrow
      refine ih (h.step hrow hlast htouched) hrow' ?_ hforward.2
      split
      · exact le_refl _
      · exact hlast

-- ================================================================== kept

/-- A session in steady use: the stamp is less than a touch interval behind the
last use, unless the session was revoked. -/
inductive Live (settings : AuthSettings) (expiresAt last : Nat) (row : AuthSession) : Prop
  | revoked (h : row.status = .revoked)
  | active (status : row.status = .active) (expires : row.expiresAt = expiresAt) (t : Nat)
      (seen : row.lastSeenAt = some t) (near : last < t + settings.sessionTouchInterval)

/-- Within the gap a session in use is not stale. -/
theorem Live.expireStale (h : Live settings expiresAt last row) (hnow : now < expiresAt)
    (hgap : now + settings.sessionTouchInterval ≤ last + settings.sessionIdleTtl) :
    row.expireStale settings now = row := by
  cases h with
  | revoked h => exact expireStale_of_ended (by simp [h])
  | active status expires t seen near =>
      refine if_neg ?_
      rintro ⟨-, hend | hnone | hidle⟩
      · omega
      · rw [seen] at hnone
        cases hnone
      · rw [seen, Option.any_some, decide_eq_true_eq] at hidle
        omega

/-- Within the gap a session in use admits its user. -/
theorem current_of_live {t : Nat} (status : row.status = .active)
    (expires : row.expiresAt = expiresAt) (seen : row.lastSeenAt = some t)
    (near : last < t + settings.sessionTouchInterval) (hnow : now < expiresAt)
    (hgap : now + settings.sessionTouchInterval ≤ last + settings.sessionIdleTtl) :
    row.current settings now true = true := by
  refine current_iff.mpr ⟨status, by omega, ?_, rfl⟩
  rw [seen, Option.any_some, decide_eq_true_eq]
  omega

theorem Live.visit (h : Live settings expiresAt last row) (hnow : now < expiresAt)
    (htouch : 0 < settings.sessionTouchInterval)
    (hgap : now + settings.sessionTouchInterval ≤ last + settings.sessionIdleTtl) :
    Live settings expiresAt now (row.visit settings now true) := by
  unfold AuthSession.visit
  cases h with
  | revoked h =>
      rw [if_neg fun hc => by simpa [h] using (current_iff.mp hc).1,
        expireStale_of_ended (by simp [h])]
      exact .revoked h
  | active status expires t seen near =>
      rw [if_pos (current_of_live status expires seen near hnow hgap)]
      by_cases hdue : row.lastSeenAt.any (· + settings.sessionTouchInterval ≤ now) = true
      · rw [if_pos hdue]
        exact .active status expires now rfl (by omega)
      · rw [if_neg hdue]
        rw [seen, Option.any_some, decide_eq_true_eq] at hdue
        exact .active status expires t seen (by omega)

theorem Live.step (h : Live settings expiresAt last row) (htime : a.time < expiresAt)
    (hgap : a.time + settings.sessionTouchInterval ≤ last + settings.sessionIdleTtl)
    (hother : ¬ a.Visits id) (htouched : Touched settings id a row row') :
    Live settings expiresAt last row' := by
  cases htouched with
  | same _ => exact h
  | visited now admits ha =>
      subst ha
      exact absurd rfl hother
  | swept _ =>
      rw [h.expireStale htime hgap]
      exact h
  | revoked _ hactive => exact .revoked rfl

-- ============================================================== schedules

theorem Forward.le_last {as : List Act} (h : Forward clock (as ++ [a])) :
    clock ≤ a.time := by
  induction as generalizing clock with
  | nil => exact h.1
  | cons b as ih => exact h.1.trans (ih h.2)

theorem Act.Visits.eq (h : a.Visits id) : ∃ now admits, a = .currentAuth now id admits := by
  cases a with
  | currentAuth now sessionId admits =>
      have he : sessionId = id := h
      exact ⟨now, admits, by rw [he]⟩
  | _ => cases h

theorem steady_visit {as : List Act} :
    Steady settings id last (.currentAuth now id admits :: as) ↔ admits = true
      ∧ now + settings.sessionTouchInterval ≤ last + settings.sessionIdleTtl
      ∧ Steady settings id now as := by
  rw [Steady, if_pos rfl]

theorem Steady.tail {as : List Act} (h : Steady settings id last (a :: as))
    (hother : ¬ a.Visits id) : Steady settings id last as := by
  cases a with
  | currentAuth now sessionId admits =>
      have hne : sessionId ≠ id := hother
      rwa [Steady, if_neg hne] at h
  | _ => exact h

/-- A steady schedule that ends in a visit is, at every time up to the next visit,
within the gap. -/
theorem Steady.gap {as : List Act}
    (h : Steady settings id last (as ++ [.currentAuth now id admits]))
    (hforward : Forward clock (as ++ [.currentAuth now id admits])) :
    clock + settings.sessionTouchInterval ≤ last + settings.sessionIdleTtl := by
  induction as generalizing clock with
  | nil =>
      have hle : clock ≤ now := hforward.1
      have hgap := (steady_visit.mp h).2.1
      omega
  | cons a as ih =>
      have hle := hforward.1
      by_cases hvisits : a.Visits id
      · obtain ⟨t, admits', rfl⟩ := hvisits.eq
        have hgap := (steady_visit.mp h).2.1
        simp only [Act.time] at hle
        omega
      · have hgap := ih (h.tail hvisits) hforward.2
        omega

/-- Along a steady schedule the session stays in use. -/
theorem Live.run (h : Live cfg.settings expiresAt last row)
    (htouch : 0 < cfg.settings.sessionTouchInterval)
    (hrow : w.store.sessions.get id = some row) {as : List Act}
    (hforward : Forward clock (as ++ [.currentAuth now id admits]))
    (hsteady : Steady cfg.settings id last (as ++ [.currentAuth now id admits]))
    (hnow : now < expiresAt) :
    ∃ row' last', (Lib.run (authStep cfg) w as).store.sessions.get id = some row'
      ∧ Live cfg.settings expiresAt last' row'
      ∧ now + cfg.settings.sessionTouchInterval ≤ last' + cfg.settings.sessionIdleTtl
      ∧ admits = true := by
  induction as generalizing w row last clock with
  | nil =>
      obtain ⟨hadmits, hgap, -⟩ := steady_visit.mp hsteady
      exact ⟨row, last, hrow, h, hgap, hadmits⟩
  | cons a as ih =>
      have htime : a.time ≤ now := hforward.2.le_last
      obtain ⟨row', hrow', htouched⟩ := (authStep_touches cfg w a).old id row hrow
      by_cases hvisits : a.Visits id
      · obtain ⟨t, admits', rfl⟩ := hvisits.eq
        obtain ⟨rfl, hgap, hrest⟩ := steady_visit.mp hsteady
        have htime : t < expiresAt := lt_of_le_of_lt htime hnow
        refine ih ?_ hrow' hforward.2 hrest
        cases htouched with
        | same hother => exact absurd hvisits hother
        | visited t' admits' ha =>
            obtain ⟨rfl, -, rfl⟩ := Act.currentAuth.inj ha
            exact h.visit htime htouch hgap
        | swept hother => exact absurd hvisits hother
        | revoked hother _ => exact absurd hvisits hother
      · have hrest := hsteady.tail hvisits
        have hlive := h.step (lt_of_le_of_lt htime hnow) (hrest.gap hforward.2) hvisits htouched
        exact ih hlive hrow' hforward.2 hrest

-- ================================================================== law

/-- **Session expiry**: whichever act opens a session, it lasts as its clocks say
along every run. -/
theorem session_lasting (cfg : Config) (htouch : 0 < cfg.settings.sessionTouchInterval)
    (w : World) (a : Act) (id : Nat) (row : AuthSession)
    (hnew : w.store.sessions.get id = none)
    (hrow : (authStep cfg w a).store.sessions.get id = some row)
    (as : List Act) (now : Nat) (admits : Bool)
    (hforward : Forward a.time (as ++ [.currentAuth now id admits])) :
    Lasting cfg (authStep cfg w a) id a.time row.expiresAt as now admits := by
  have hopens := (authStep_touches cfg w a).new id row hnew hrow
  have hlagging : Lagging row.expiresAt a.time row :=
    ⟨rfl, fun _ => ⟨a.time, hopens.lastSeenAt, le_refl _⟩⟩
  have hlive : Live cfg.settings row.expiresAt a.time row :=
    .active hopens.status rfl a.time hopens.lastSeenAt (by omega)
  constructor
  · intro hsucceeds
    obtain ⟨row', hrow', hlag, -⟩ := hlagging.run hrow (le_refl _) hforward
    obtain ⟨-, hcurrent⟩ := (succeeds_iff hrow').mp hsucceeds
    obtain ⟨hactive, hexpires, hidle, -⟩ := current_iff.mp hcurrent
    obtain ⟨t, ht, hle⟩ := hlag.seen hactive
    rw [ht, Option.any_some, decide_eq_true_eq] at hidle
    rw [hlag.expiresAt] at hexpires
    exact ⟨hexpires, by omega⟩
  · intro hsteady hkept hnow
    obtain ⟨row', last, hrow', hlive', hgap, rfl⟩ :=
      hlive.run htouch hrow hforward hsteady hnow
    refine (succeeds_iff hrow').mpr ⟨rfl, ?_⟩
    cases hlive' with
    | revoked h => exact absurd h (hkept row' hrow')
    | active status expires t seen near =>
        exact current_of_live status expires seen near hnow hgap
  · intro row' hrow' hended bs
    rw [run_append]
    have hbs : (run (authStep cfg) (run (authStep cfg) (authStep cfg w a) as)
        bs).store.sessions.get id = some row' := run_ended hrow' hended bs
    exact ⟨hbs, ended_fails hbs hended⟩

/-- A session of a hundred units, idle after forty, stamped every ten. -/
def clockedAuth : Config :=
  { hasher :=
      { verifyOrDummy := fun stored password => stored == some password
        needsRehash := fun _ => false, hash := fun _ password => password }
    settings :=
      { maxFailedLoginAttempts := 5, lockout := 900, sessionTtl := 100
        sessionIdleTtl := 40, sessionTouchInterval := 10 } }

/-- The call at 38 finds the stamp of 1, as those at 5 and 9 left it. -/
theorem session_lasting_sample :
    (Act.currentAuth 38 0 true).succeeds clockedAuth 0
      (run (authStep clockedAuth)
        (authStep clockedAuth World.initial (.register 1 1 "ann@acme.io" "first password"))
        [.currentAuth 5 0 true, .currentAuth 9 0 true, .listUserSessions 38 1 0]) = true := by
  have hlasting := session_lasting clockedAuth (by decide) World.initial
    (.register 1 1 "ann@acme.io" "first password") 0
    { userId := 0, tenantId := 1, status := .active, expiresAt := 101, lastSeenAt := some 1
      revokedAt := none, verified := 0 } rfl rfl
    [.currentAuth 5 0 true, .currentAuth 9 0 true, .listUserSessions 38 1 0] 38 true
    (by decide)
  refine hlasting.kept (by simp [Steady, Act.time, clockedAuth]) ?_ (by decide)
  intro row hrow
  obtain rfl := Option.some.inj hrow
  decide

end Mosaic.Auth
