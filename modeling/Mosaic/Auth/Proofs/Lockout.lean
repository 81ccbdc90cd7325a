/-
How often a password can be guessed.

# The law

An account takes at most `max_failed_attempts` wrong passwords in any
window of `lockout_seconds`; while it is locked nobody gets in and nothing
about it changes; and a lock that has run out leaves no trace.

# The history behind the counter

A row carries a counter and perhaps a deadline, and a lock that has run
out is lifted by the next call. `Lockout` reads such a row as the end of a
history of guesses: the last `failed_login_count` of them are the present
round, no round is longer than the limit, and everything before the
present round lies a whole window before it. A round that reaches the
limit sets the deadline a window after its last guess, so the next round
is again that far away, and no window meets two rounds.
-/
import Mosaic.Auth.Repository
import Mosaic.Lib.Run

namespace Mosaic.Auth

open Lib

variable {cfg : AuthSettings} {hasher : PasswordHasher} {s : Store} {id now : Nat}
  {u u' : User} {password : String} {past : List Nat}

-- ============================================================== attempts

/-- One call of `authenticate`. -/
structure Attempt where
  directory : Directory
  now : Nat
  salt : Nat
  account : String
  password : String
  tenantSlug : Option String

/-- The call, with what it answers. -/
def Attempt.call (hasher : PasswordHasher) (cfg : AuthSettings) (s : Store) (a : Attempt) :
    Verdict × Store :=
  authenticate hasher cfg a.directory a.now a.salt a.account a.password a.tenantSlug s

/-- The store after the call. -/
def attemptStep (hasher : PasswordHasher) (cfg : AuthSettings) (s : Store) (a : Attempt) :
    Store :=
  (a.call hasher cfg s).2

/-- The row a call is about. -/
def Attempt.row (s : Store) (a : Attempt) : Option (Nat × User) :=
  s.users.find fun u => u.email == a.account

/-- A call on a user that ends with a login. -/
def Attempt.LogsIn (hasher : PasswordHasher) (cfg : AuthSettings) (id : Nat) (s : Store)
    (a : Attempt) : Prop :=
  (∃ u, a.row s = some (id, u)) ∧ ∃ record, (a.call hasher cfg s).1 = .admitted record

/-- A call that evaluates a wrong password: the account is active and not
locked, or its lock has run out. -/
def User.guessed (hasher : PasswordHasher) (now : Nat) (password : String) (u : User) : Bool :=
  u.status == .active && !(u.unlocked now).lockedUntil.any (now < ·)
    && !hasher.verifyOrDummy (some u.passwordHash) password

/-- The times of the guesses at a user's password, along a run. -/
def guesses (hasher : PasswordHasher) (cfg : AuthSettings) (id : Nat) :
    Store → List Attempt → List Nat
  | _, [] => []
  | s, a :: rest =>
      let later := guesses hasher cfg id (attemptStep hasher cfg s a) rest
      match a.row s with
      | some (i, u) =>
          if i = id ∧ u.guessed hasher a.now a.password = true then a.now :: later else later
      | none => later

-- =============================================================== one call

theorem unlocked_of_none (h : u.lockedUntil = none) : u.unlocked now = u := by
  unfold User.unlocked
  rw [h]
  rfl

theorem unlocked_of_lt {deadline : Nat} (h : u.lockedUntil = some deadline)
    (hlt : now < deadline) : u.unlocked now = u := by
  unfold User.unlocked
  rw [h]
  exact if_neg (by simp [hlt])

theorem unlocked_of_le {deadline : Nat} (h : u.lockedUntil = some deadline)
    (hle : deadline ≤ now) :
    u.unlocked now = { u with lockedUntil := none, failedLoginCount := 0 } := by
  unfold User.unlocked
  rw [h]
  exact if_pos (by simp [hle])

/-- While a row is locked a call reads it and no more. -/
theorem authenticateUser_locked {directory : Directory} {salt : Nat}
    {tenantSlug : Option String} {deadline : Nat} (h : u.lockedUntil = some deadline)
    (hlt : now < deadline) :
    authenticateUser hasher cfg directory now salt password tenantSlug id u
      = (.refused, u) := by
  have hlocked : (u.lockedUntil.any (now < ·)) = true := by simp [h, hlt]
  unfold authenticateUser
  dsimp only
  rw [unlocked_of_lt h hlt]
  by_cases hactive : u.status ≠ .active
  · exact if_pos hactive
  · rw [if_neg hactive, if_pos hlocked]

/-- A row whose lock has run out is as good as one with a fresh counter. -/
theorem authenticateUser_lapsed {directory : Directory} {salt : Nat}
    {tenantSlug : Option String} {deadline : Nat} (h : u.lockedUntil = some deadline)
    (hle : deadline ≤ now) (hactive : u.status = .active) :
    authenticateUser hasher cfg directory now salt password tenantSlug id u
      = authenticateUser hasher cfg directory now salt password tenantSlug id
          { u with lockedUntil := none, failedLoginCount := 0 } := by
  have hfresh : ({ u with lockedUntil := none, failedLoginCount := 0 } : User).unlocked now
      = { u with lockedUntil := none, failedLoginCount := 0 } := unlocked_of_none rfl
  unfold authenticateUser
  dsimp only
  rw [unlocked_of_le h hle, hfresh, if_neg (not_not.mpr hactive)]
  exact (if_neg (not_not.mpr hactive)).symm

/-- What a call without a login does to the row. -/
theorem authenticateUser_cases {directory : Directory} {salt : Nat}
    {tenantSlug : Option String} {verdict : Verdict}
    (h : authenticateUser hasher cfg directory now salt password tenantSlug id u
      = (verdict, u')) (hno : ∀ record, verdict ≠ .admitted record) :
    (u.guessed hasher now password = true
        ∧ u' = (u.unlocked now).failed now cfg.maxFailedLoginAttempts cfg.lockout
        ∧ (u.unlocked now).lockedUntil = none)
      ∨ (u.guessed hasher now password = false ∧ (u' = u ∨ u' = u.unlocked now)) := by
  have hunlocked : (u.unlocked now).lockedUntil.any (now < ·) = false →
      (u.unlocked now).lockedUntil = none := by
    intro hany
    cases hlock : u.lockedUntil with
    | none => rw [unlocked_of_none hlock, hlock]
    | some deadline =>
        by_cases hlt : now < deadline
        · rw [unlocked_of_lt hlock hlt, hlock] at hany
          simp [hlt] at hany
        · rw [unlocked_of_le hlock (by omega)]
  unfold authenticateUser at h
  unfold User.guessed
  dsimp only at h
  split at h
  · next hactive =>
      obtain ⟨-, rfl⟩ := Prod.mk.inj h
      exact Or.inr ⟨by simp [hactive], Or.inl rfl⟩
  · next hactive =>
      rw [not_not] at hactive
      split at h
      · next hlocked =>
          obtain ⟨-, rfl⟩ := Prod.mk.inj h
          exact Or.inr ⟨by simp [hlocked], Or.inr rfl⟩
      · next hlocked =>
          rw [Bool.not_eq_true] at hlocked
          split at h
          · next hwrong =>
              obtain ⟨-, rfl⟩ := Prod.mk.inj h
              exact Or.inl ⟨by simp [hactive, hlocked, hwrong], rfl, hunlocked hlocked⟩
          · next hright =>
              rw [Bool.not_eq_false] at hright
              refine Or.inr ⟨by simp [hright], Or.inr ?_⟩
              -- a right password without a login leaves the lifted row
              split at h
              · exact (Prod.mk.inj h).2.symm
              · split at h
                · exact (Prod.mk.inj h).2.symm
                · split at h
                  · exact (Prod.mk.inj h).2.symm
                  · exact absurd (Prod.mk.inj h).1.symm (hno _)

-- =============================================================== windows

/-- No window `[start, start + width)` meets more than `n` of the times. -/
def Sparse (n width : Nat) (times : List Nat) : Prop :=
  ∀ start, times.countP (fun t => start ≤ t ∧ t < start + width) ≤ n

/-- Times a window apart from the rest share no window with them. -/
theorem Sparse.append {n width : Nat} {old round : List Nat} (h : Sparse n width old)
    (hround : round.length ≤ n) (hapart : ∀ o ∈ old, ∀ t ∈ round, o + width ≤ t) :
    Sparse n width (old ++ round) := by
  intro start
  rw [List.countP_append]
  by_cases hmeets : ∃ t ∈ round, start ≤ t ∧ t < start + width
  · obtain ⟨t, ht, -, hlt⟩ := hmeets
    have hnone : old.countP (fun t => start ≤ t ∧ t < start + width) = 0 := by
      refine List.countP_eq_zero.mpr fun o ho => ?_
      have := hapart o ho t ht
      simp only [decide_eq_true_eq]
      omega
    have hle := List.countP_le_length (p := fun t => decide (start ≤ t ∧ t < start + width))
      (l := round)
    omega
  · have hnone : round.countP (fun t => start ≤ t ∧ t < start + width) = 0 := by
      refine List.countP_eq_zero.mpr fun t ht => ?_
      simp only [decide_eq_true_eq]
      exact fun hin => hmeets ⟨t, ht, hin⟩
    have := h start
    omega

-- ============================================================= invariant

/-- A row as the end of a history of guesses, at the time `now`. -/
structure Lockout (cfg : AuthSettings) (past : List Nat) (now : Nat) (u : User)
    (old round : List Nat) : Prop where
  split : past = old ++ round
  count : u.failedLoginCount = round.length
  bounded : round.length ≤ cfg.maxFailedLoginAttempts
  sparse : Sparse cfg.maxFailedLoginAttempts cfg.lockout old
  apart : ∀ o ∈ old, ∀ t ∈ round, o + cfg.lockout ≤ t
  before : ∀ t ∈ past, t ≤ now
  free : u.lockedUntil = none →
    round.length < cfg.maxFailedLoginAttempts ∧ ∀ o ∈ old, o + cfg.lockout ≤ now
  locked : ∀ deadline, u.lockedUntil = some deadline → ∀ t ∈ past, t + cfg.lockout ≤ deadline

theorem Lockout.all_sparse {old round : List Nat} (h : Lockout cfg past now u old round) :
    Sparse cfg.maxFailedLoginAttempts cfg.lockout past := by
  rw [h.split]
  exact h.sparse.append h.bounded h.apart

/-- Time passes. -/
theorem Lockout.later {old round : List Nat} {later : Nat}
    (h : Lockout cfg past now u old round) (hle : now ≤ later) :
    Lockout cfg past later u old round :=
  { h with
    before := fun t ht => le_trans (h.before t ht) hle
    free := fun hnone => ⟨(h.free hnone).1, fun o ho => le_trans ((h.free hnone).2 o ho) hle⟩ }

/-- A lifted lock ends the round. -/
theorem Lockout.unlocked (hmax : 0 < cfg.maxFailedLoginAttempts) {old round : List Nat}
    (h : Lockout cfg past now u old round) :
    ∃ old' round', Lockout cfg past now (u.unlocked now) old' round' := by
  cases hlock : u.lockedUntil with
  | none =>
      rw [unlocked_of_none hlock]
      exact ⟨old, round, h⟩
  | some deadline =>
      by_cases hlt : now < deadline
      · rw [unlocked_of_lt hlock hlt]
        exact ⟨old, round, h⟩
      · rw [unlocked_of_le hlock (by omega)]
        refine ⟨past, [], ?_⟩
        exact
          { split := (List.append_nil past).symm
            count := rfl
            bounded := Nat.zero_le _
            sparse := h.all_sparse
            apart := fun o _ t ht => absurd ht List.not_mem_nil
            before := h.before
            free := fun _ => ⟨hmax, fun o ho => by have := h.locked deadline hlock o ho; omega⟩
            locked := fun _ hnone => by cases hnone }

/-- A wrong password is one more guess of the round. -/
theorem Lockout.failed {old round : List Nat} (h : Lockout cfg past now u old round)
    (hnone : u.lockedUntil = none) :
    Lockout cfg (past ++ [now]) now (u.failed now cfg.maxFailedLoginAttempts cfg.lockout)
      old (round ++ [now]) := by
  obtain ⟨hroom, hold⟩ := h.free hnone
  have hcount := h.count
  refine
    { split := by rw [h.split, List.append_assoc]
      count := by simp [User.failed, hcount]
      bounded := by rw [List.length_append, List.length_singleton]; omega
      sparse := h.sparse
      apart := fun o ho t ht => ?_
      before := fun t ht => ?_
      free := fun hfree => ?_
      locked := fun deadline huntil t ht => ?_ }
  · rcases List.mem_append.mp ht with ht | ht
    · exact h.apart o ho t ht
    · rw [List.mem_singleton.mp ht]
      exact hold o ho
  · rcases List.mem_append.mp ht with ht | ht
    · exact h.before t ht
    · exact (List.mem_singleton.mp ht).le
  · refine ⟨?_, hold⟩
    simp only [User.failed] at hfree
    by_cases hfull : cfg.maxFailedLoginAttempts ≤ u.failedLoginCount + 1
    · rw [if_pos hfull] at hfree
      cases hfree
    · rw [List.length_append, List.length_singleton]
      omega
  · have hle : t ≤ now := by
      rcases List.mem_append.mp ht with ht | ht
      · exact h.before t ht
      · exact (List.mem_singleton.mp ht).le
    simp only [User.failed] at huntil
    by_cases hfull : cfg.maxFailedLoginAttempts ≤ u.failedLoginCount + 1
    · rw [if_pos hfull] at huntil
      obtain rfl := Option.some.inj huntil
      omega
    · rw [if_neg hfull, hnone] at huntil
      cases huntil

-- ================================================================== runs

/-- A call and what it does to the rows. -/
theorem call_eq (a : Attempt) (s : Store) :
    a.call hasher cfg s = match a.row s with
      | none => (.refused, s)
      | some (i, u) =>
          ((authenticateUser hasher cfg a.directory a.now a.salt a.password a.tenantSlug i u).1,
            { s with users := s.users.modify i fun _ =>
              (authenticateUser hasher cfg a.directory a.now a.salt a.password a.tenantSlug
                i u).2 }) := by
  unfold Attempt.call authenticate Attempt.row
  cases s.users.find fun u => u.email == a.account with
  | none => rfl
  | some e => rfl

/-- A user's row after a call: the one the call was about, or the same. -/
theorem attemptStep_row {a : Attempt} (hu : s.users.get id = some u)
    (hno : ¬ a.LogsIn hasher cfg id s) :
    (a.row s = some (id, u) ∧ ∃ verdict u',
        authenticateUser hasher cfg a.directory a.now a.salt a.password a.tenantSlug id u
          = (verdict, u')
        ∧ (∀ record, verdict ≠ .admitted record)
        ∧ (attemptStep hasher cfg s a).users.get id = some u')
      ∨ ((∀ x, a.row s ≠ some (id, x))
        ∧ (attemptStep hasher cfg s a).users.get id = some u) := by
  cases hrow : a.row s with
  | none =>
      refine Or.inr ⟨fun x => (by simp), ?_⟩
      rw [attemptStep, call_eq, hrow]
      exact hu
  | some e =>
      obtain ⟨i, x⟩ := e
      have hget : s.users.get i = some x := (Table.find_some hrow).1
      by_cases hi : i = id
      · subst hi
        rw [hu] at hget
        obtain rfl := Option.some.inj hget
        cases hcall : authenticateUser hasher cfg a.directory a.now a.salt a.password
          a.tenantSlug i u with
        | mk verdict u' =>
            refine Or.inl ⟨rfl, verdict, u', rfl, fun record hrecord =>
              hno ⟨⟨u, hrow⟩, record, ?_⟩, ?_⟩
            · rw [call_eq, hrow]
              dsimp only
              rw [hcall]
              exact hrecord
            · rw [attemptStep, call_eq, hrow]
              dsimp only
              rw [hcall, Table.get_modify_self, hu]
              rfl
      · refine Or.inr ⟨fun y hy => hi (Prod.mk.inj (Option.some.inj hy)).1, ?_⟩
        rw [attemptStep, call_eq, hrow]
        exact (Table.get_modify_ne s.users hi _).trans hu

/-- The history of a user along a run, and the row at its end. -/
theorem run_lockout (hmax : 0 < cfg.maxFailedLoginAttempts) {calls : List Attempt}
    {old round : List Nat} (hu : s.users.get id = some u)
    (hinv : Lockout cfg past now u old round)
    (htimes : (now :: calls.map (·.now)).Pairwise (· ≤ ·))
    (hno : RunAll (attemptStep hasher cfg) (fun s a => ¬ a.LogsIn hasher cfg id s) s calls) :
    Sparse cfg.maxFailedLoginAttempts cfg.lockout (past ++ guesses hasher cfg id s calls) := by
  induction calls generalizing s u past now old round with
  | nil =>
      rw [guesses, List.append_nil]
      exact hinv.all_sparse
  | cons a calls ih =>
      obtain ⟨hfirst, hrest⟩ := hno
      rw [List.map_cons, List.pairwise_cons] at htimes
      obtain ⟨hnow, htimes⟩ := htimes
      have hlater := hinv.later (hnow a.now List.mem_cons_self)
      rw [guesses]
      rcases attemptStep_row hu hfirst with ⟨hrow, verdict, u', hcall, hverdict, hu'⟩
        | ⟨hother, hu'⟩
      · rw [hrow]
        dsimp only
        obtain ⟨old', round', hunlocked⟩ := hlater.unlocked hmax
        rcases authenticateUser_cases hcall hverdict with ⟨hguess, rfl, hnone⟩
          | ⟨hguess, rfl | rfl⟩
        · rw [if_pos ⟨rfl, hguess⟩, List.append_cons]
          exact ih hu' (hunlocked.failed hnone) htimes hrest
        · rw [if_neg (by simp [hguess])]
          exact ih hu' hlater htimes hrest
        · rw [if_neg (by simp [hguess])]
          exact ih hu' hunlocked htimes hrest
      · have hskip : (match a.row s with
            | some (i, u) => if i = id ∧ u.guessed hasher a.now a.password = true then
                a.now :: guesses hasher cfg id (attemptStep hasher cfg s a) calls
              else guesses hasher cfg id (attemptStep hasher cfg s a) calls
            | none => guesses hasher cfg id (attemptStep hasher cfg s a) calls)
            = guesses hasher cfg id (attemptStep hasher cfg s a) calls := by
          cases hrow : a.row s with
          | none => rfl
          | some e =>
              obtain ⟨i, x⟩ := e
              have hi : i ≠ id := by
                rintro rfl
                exact hother x hrow
              simp [hi]
        rw [hskip]
        exact ih hu' hlater htimes hrest

/-- Along a run without a login of the user, the row stays and is active. -/
theorem run_row {calls : List Attempt} (hu : s.users.get id = some u)
    (hactive : u.status = .active)
    (hno : RunAll (attemptStep hasher cfg) (fun s a => ¬ a.LogsIn hasher cfg id s) s calls) :
    ∃ u', (run (attemptStep hasher cfg) s calls).users.get id = some u'
      ∧ u'.status = .active := by
  induction calls generalizing s u with
  | nil => exact ⟨u, hu, hactive⟩
  | cons a calls ih =>
      obtain ⟨hfirst, hrest⟩ := hno
      have hunlocked : (u.unlocked a.now).status = .active := by
        unfold User.unlocked
        split
        · exact hactive
        · exact hactive
      rcases attemptStep_row hu hfirst with ⟨-, verdict, u', hcall, hverdict, hu'⟩
        | ⟨-, hu'⟩
      · refine ih hu' ?_ hrest
        rcases authenticateUser_cases hcall hverdict with ⟨-, rfl, -⟩ | ⟨-, rfl | rfl⟩
        · exact hunlocked
        · exact hactive
        · exact hunlocked
      · exact ih hu' hactive hrest

/-- A row written back as it was read. -/
theorem modify_same {ρ : Type} {t : Table ρ} {i : Nat} {r : ρ} (h : t.get i = some r) :
    (t.modify i fun _ => r) = t := by
  cases t with
  | mk rows =>
      refine congrArg Table.mk (List.ext_getElem? fun j => ?_)
      have hmodify := Table.get_modify (⟨rows⟩ : Table ρ) i j fun _ => r
      simp only [Table.get, Table.modify] at h hmodify
      rw [hmodify]
      split
      · next heq => rw [← heq, h]; rfl
      · rfl

/-- The count a call without a login leaves, when the lock has run out. -/
theorem lapsed_count {directory : Directory} {salt : Nat} {tenantSlug : Option String}
    {deadline : Nat} {verdict : Verdict} (h : u.lockedUntil = some deadline) (hle : deadline ≤ now)
    (hactive : u.status = .active)
    (hcall : authenticateUser hasher cfg directory now salt password tenantSlug id u
      = (verdict, u')) (hno : ∀ record, verdict ≠ .admitted record) :
    u'.failedLoginCount
      = if hasher.verifyOrDummy (some u.passwordHash) password = true then 0 else 1 := by
  rw [authenticateUser_lapsed h hle hactive] at hcall
  -- the call reads a row with a fresh counter and no lock
  have hfresh : ({ u with lockedUntil := none, failedLoginCount := 0 } : User).unlocked now
      = { u with lockedUntil := none, failedLoginCount := 0 } := unlocked_of_none rfl
  have hguessed : ({ u with lockedUntil := none, failedLoginCount := 0 } : User).guessed
      hasher now password = !hasher.verifyOrDummy (some u.passwordHash) password := by
    unfold User.guessed
    rw [hfresh]
    simp [hactive]
  rcases authenticateUser_cases hcall hno with ⟨hguess, rfl, -⟩ | ⟨hguess, hrow⟩
  · rw [hguessed, Bool.not_eq_true'] at hguess
    rw [hfresh, hguess]
    rfl
  · rw [hguessed, Bool.not_eq_false'] at hguess
    rw [hguess]
    rcases hrow with rfl | rfl
    · rfl
    · rw [hfresh]
      rfl

/-- The lockout law, of any active user and any calls at times that do not
go back, none of which logs the user in: no window sees more guesses than
the limit, a locked account answers nobody and stays as it is, and the
first call past the lock is that of a row with a fresh counter. -/
theorem lockout_law (hasher : PasswordHasher) (cfg : AuthSettings)
    (hmax : 0 < cfg.maxFailedLoginAttempts) (s : Store) (id : Nat) (u : User)
    (hu : s.users.get id = some u) (hactive : u.status = .active)
    (hcount : u.failedLoginCount = 0) (hlock : u.lockedUntil = none) (calls : List Attempt)
    (htimes : (calls.map (·.now)).Pairwise (· ≤ ·))
    (hno : RunAll (attemptStep hasher cfg) (fun s a => ¬ a.LogsIn hasher cfg id s) s calls) :
    (∀ start, (guesses hasher cfg id s calls).countP
        (fun t => start ≤ t ∧ t < start + cfg.lockout) ≤ cfg.maxFailedLoginAttempts)
    ∧ ∀ before a after, calls = before ++ a :: after →
        ∀ w, run (attemptStep hasher cfg) s before = w →
        ∀ u' deadline, a.row w = some (id, u') → u'.lockedUntil = some deadline →
          (a.now < deadline → a.call hasher cfg w = (.refused, w))
          ∧ (deadline ≤ a.now →
              authenticateUser hasher cfg a.directory a.now a.salt a.password a.tenantSlug id u'
                = authenticateUser hasher cfg a.directory a.now a.salt a.password a.tenantSlug
                    id { u' with lockedUntil := none, failedLoginCount := 0 }
              ∧ ∃ u'', (attemptStep hasher cfg w a).users.get id = some u''
                ∧ u''.failedLoginCount
                  = if hasher.verifyOrDummy (some u'.passwordHash) a.password = true then 0
                    else 1) := by
  constructor
  · -- before the first call nothing has been guessed
    have hnone : Sparse cfg.maxFailedLoginAttempts cfg.lockout [] := fun start => by simp
    have hinv : Lockout cfg [] 0 u [] [] :=
      { split := rfl
        count := hcount
        bounded := Nat.zero_le _
        sparse := hnone
        apart := fun o ho => absurd ho List.not_mem_nil
        before := fun t ht => absurd ht List.not_mem_nil
        free := fun _ => ⟨hmax, fun o ho => absurd ho List.not_mem_nil⟩
        locked := fun _ hsome => by rw [hlock] at hsome; cases hsome }
    have htimes' : (0 :: calls.map (·.now)).Pairwise (· ≤ ·) :=
      List.pairwise_cons.mpr ⟨fun t _ => Nat.zero_le t, htimes⟩
    exact run_lockout hmax hu hinv htimes' hno
  · rintro before a after rfl w rfl u' deadline hrow huntil
    obtain ⟨hbefore, hfirst, -⟩ := runAll_append.mp hno
    obtain ⟨x, hx, hstatus⟩ := run_row hu hactive hbefore
    have hget := (Table.find_some hrow).1
    rw [hx] at hget
    obtain rfl : x = u' := Option.some.inj hget
    refine ⟨fun hlt => ?_, fun hle => ⟨authenticateUser_lapsed huntil hle hstatus, ?_⟩⟩
    · rw [call_eq, hrow]
      dsimp only
      rw [authenticateUser_locked huntil hlt, modify_same hx]
    · rcases attemptStep_row hx hfirst with ⟨-, verdict, u'', hcall, hverdict, hu''⟩
        | ⟨hother, -⟩
      · exact ⟨u'', hu'', lapsed_count huntil hle hstatus hcall hverdict⟩
      · exact absurd hrow (hother x)

-- ================================================================ sample

/-- A hasher on one password, as far as it goes. -/
def lockoutHasher : PasswordHasher where
  verifyOrDummy stored password := stored == some "argon2:right" && password == "right"
  needsRehash _ := false
  hash _ password := "argon2:" ++ password

/-- Two guesses, then a lock of a hundred. -/
def lockoutSettings : AuthSettings :=
  { maxFailedLoginAttempts := 2, lockout := 100, sessionTtl := 1000, sessionIdleTtl := 100
    sessionTouchInterval := 10 }

/-- One user, who has never failed. -/
def lockoutUser : User :=
  { email := "ada", passwordHash := "argon2:right", status := .active, failedLoginCount := 0
    lockedUntil := none, passwordChangedAt := 0, passwordChangeRequired := false
    credentialExpiresAt := none, credentialUsedAt := none, credential := 0 }

def lockoutStore : Store :=
  { users := ⟨[lockoutUser]⟩, sessions := Table.empty, credentials := Table.empty }

def lockoutAttempt (now : Nat) (password : String) : Attempt :=
  { directory := fun _ => [(1, "tenant")], now, salt := 0, account := "ada", password
    tenantSlug := none }

/-- Two wrong passwords, the right one while locked, a wrong one at the
end of the lock. -/
def lockoutCalls : List Attempt :=
  [lockoutAttempt 0 "x", lockoutAttempt 10 "y", lockoutAttempt 50 "right",
   lockoutAttempt 110 "z"]

theorem lockout_law_sample :
    (guesses lockoutHasher lockoutSettings 0 lockoutStore lockoutCalls).countP
        (fun t => 0 ≤ t ∧ t < 0 + 100) ≤ 2
      ∧ (run (attemptStep lockoutHasher lockoutSettings) lockoutStore
          (lockoutCalls.take 2)).users.rows.map (·.lockedUntil) = [some 110]
      ∧ (lockoutAttempt 50 "right").call lockoutHasher lockoutSettings
          (run (attemptStep lockoutHasher lockoutSettings) lockoutStore (lockoutCalls.take 2))
        = (.refused, run (attemptStep lockoutHasher lockoutSettings) lockoutStore
            (lockoutCalls.take 2)) := by
  have hrefused : ∀ s a, (Attempt.call lockoutHasher lockoutSettings s a).1 = .refused →
      ¬ Attempt.LogsIn lockoutHasher lockoutSettings 0 s a := by
    rintro s a hcall ⟨-, record, hrecord⟩
    rw [hcall] at hrecord
    cases hrecord
  have hlaw := lockout_law lockoutHasher lockoutSettings (by decide) lockoutStore 0 lockoutUser
    rfl rfl rfl rfl lockoutCalls (by decide)
    ⟨hrefused _ _ (by decide), hrefused _ _ (by decide), hrefused _ _ (by decide),
      hrefused _ _ (by decide), trivial⟩
  refine ⟨hlaw.1 0, by decide, ?_⟩
  exact (hlaw.2 (lockoutCalls.take 2) (lockoutAttempt 50 "right")
    [lockoutAttempt 110 "z"] rfl _ rfl
    { lockoutUser with failedLoginCount := 2, lockedUntil := some 110 } 110 (by decide) rfl).1
    (by decide)

end Mosaic.Auth
