/-
Accounts and their sessions (app/auth/repository.py and the operator
commands of scripts/operator_accounts.py).

# Transactions

Every function is one transaction. Those that read a user row take its
lock first, so they follow one another; `create_session` without a
one-time credential takes none, and a session it inserts while another
transaction runs is one inserted right after it.

# Credentials

A password hash is replaced in two ways: a rehash keeps the password, the
rest bring a new one. The table `credentials` is history and records the
second kind, with the user it was set for and whether it is a one-time
credential; a user row carries the number of its present one, a session
the number its login verified.

Left out, as nothing here reads them: names, roles, audit events, and the
address, the agent and the tokens of a session, which is known by its id.
-/
import Mosaic.Lib.Checked
import Mosaic.Lib.PyStr
import Mosaic.Lib.Table

namespace Mosaic.Auth

open Lib

-- ================================================================== rows

inductive UserStatus
  | active
  | disabled
deriving Repr, DecidableEq

/-- `Users`; `credential` is history. -/
structure User where
  email : String
  passwordHash : String
  status : UserStatus
  failedLoginCount : Nat
  lockedUntil : Option Nat
  passwordChangedAt : Nat
  passwordChangeRequired : Bool
  credentialExpiresAt : Option Nat
  credentialUsedAt : Option Nat
  credential : Nat
deriving Repr, DecidableEq

inductive SessionStatus
  | active
  | revoked
  | expired
deriving Repr, DecidableEq

/-- `AuthSessions`; `verified` is history. -/
structure AuthSession where
  userId : Nat
  tenantId : Nat
  status : SessionStatus
  expiresAt : Nat
  lastSeenAt : Option Nat
  revokedAt : Option Nat
  verified : Nat
deriving Repr, DecidableEq

/-- A password set for a user: history. -/
structure Credential where
  userId : Nat
  oneTime : Bool
deriving Repr, DecidableEq

structure Store where
  users : Table User
  sessions : Table AuthSession
  credentials : Table Credential
deriving Repr, DecidableEq

/-- The active memberships of active tenants: tenant id and slug, by user. -/
abbrev Directory := Nat → List (Nat × String)

/-- `PasswordHasher`, over Argon2; `hash` takes the salt it draws. -/
structure PasswordHasher where
  verifyOrDummy : Option String → String → Bool
  needsRehash : String → Bool
  hash : Nat → String → String

inductive AuthError
  | registrationConflict
  | oneTimeCredentialUnavailable
  | currentPasswordInvalid
  | sessionNotFound
  | passwordPolicyInvalid
  | valueError (text : String)
deriving Repr, DecidableEq

/-- `LoginRecord`. -/
structure LoginRecord where
  userId : Nat
  tenantId : Nat
  passwordChangeRequired : Bool
deriving Repr, DecidableEq

/-- What `authenticate` ends with. -/
inductive Verdict
  | refused
  | tenantSelectionRequired
  | admitted (record : LoginRecord)
deriving Repr, DecidableEq

-- ========================================================== authenticate

/-- A one-time credential that can still be used at `now`. -/
def User.consumable (u : User) (now : Nat) : Bool :=
  u.passwordChangeRequired && u.credentialExpiresAt.any (now < ·)
    && u.credentialUsedAt.isNone

/-- A lock that has run out is lifted. -/
def User.unlocked (u : User) (now : Nat) : User :=
  if u.lockedUntil.any (· ≤ now) then { u with lockedUntil := none, failedLoginCount := 0 }
  else u

/-- A wrong password is counted, and locks the account at the limit. -/
def User.failed (u : User) (now maxFailedAttempts lockout : Nat) : User :=
  let failedAttempts := u.failedLoginCount + 1
  { u with
    failedLoginCount := failedAttempts
    lockedUntil :=
      if maxFailedAttempts ≤ failedAttempts then some (now + lockout) else u.lockedUntil }

structure AuthSettings where
  maxFailedLoginAttempts : Nat
  lockout : Nat
  sessionTtl : Nat
  sessionIdleTtl : Nat
  sessionTouchInterval : Nat

/-- The membership rows of the query, filtered by a slug if one is given. -/
def memberships (directory : Directory) (userId : Nat) (tenantSlug : Option String) :
    List (Nat × String) :=
  match tenantSlug with
  | none => directory userId
  | some slug => if slug = "" then directory userId
      else (directory userId).filter fun m => m.2 == slug

/-- `authenticate`, with the user row it leaves. -/
def authenticateUser (hasher : PasswordHasher) (settings : AuthSettings)
    (directory : Directory) (now salt : Nat) (password : String)
    (tenantSlug : Option String) (id : Nat) (u : User) : Verdict × User :=
  let passwordOk := hasher.verifyOrDummy (some u.passwordHash) password
  if u.status ≠ .active then (.refused, u)
  else
    let u := u.unlocked now
    if u.lockedUntil.any (now < ·) = true then (.refused, u)
    else if passwordOk = false then
      (.refused, u.failed now settings.maxFailedLoginAttempts settings.lockout)
    else
      let rows := memberships directory id tenantSlug
      match rows with
      | [] => (.refused, u)
      | (tenantId, _) :: rest =>
          if tenantSlug = none ∧ rest ≠ [] then (.tenantSelectionRequired, u)
          else if u.passwordChangeRequired = true ∧ u.consumable now = false then
            (.refused, u)
          else
            (.admitted { userId := id, tenantId
                         passwordChangeRequired := u.passwordChangeRequired },
              { u with
                passwordHash :=
                  if hasher.needsRehash u.passwordHash then hasher.hash salt password
                  else u.passwordHash
                failedLoginCount := 0, lockedUntil := none })

/-- `authenticate`. An early `return None` commits what was written. -/
def authenticate (hasher : PasswordHasher) (settings : AuthSettings)
    (directory : Directory) (now salt : Nat) (account password : String)
    (tenantSlug : Option String) (s : Store) : Verdict × Store :=
  match s.users.find fun u => u.email == account with
  | none => (.refused, s)
  | some (id, u) =>
      let (verdict, u') :=
        authenticateUser hasher settings directory now salt password tenantSlug id u
      (verdict, { s with users := s.users.modify id fun _ => u' })

-- ============================================================== sessions

/-- The insert of `_create_session_in_transaction`. -/
def insertSession (settings : AuthSettings) (now userId tenantId verified : Nat)
    (s : Store) : Store :=
  let row : AuthSession :=
    { userId, tenantId, status := .active, expiresAt := now + settings.sessionTtl
      lastSeenAt := some now, revokedAt := none, verified }
  { s with sessions := s.sessions.insert row }

/-- `create_session`: a one-time credential is used up under the lock of its
user row. -/
def createSession (settings : AuthSettings) (now : Nat) (record : LoginRecord)
    (verified : Nat) (s : Store) : Except AuthError Store := do
  if record.passwordChangeRequired = true then do
    let u ← orRaise ((s.users.get record.userId).filter fun u => u.status == .active)
      .oneTimeCredentialUnavailable
    raiseIf (u.consumable now = false) .oneTimeCredentialUnavailable
    let users := s.users.modify record.userId fun u => { u with credentialUsedAt := some now }
    return insertSession settings now record.userId record.tenantId verified { s with users }
  else
    return insertSession settings now record.userId record.tenantId verified s

/-- Every active session of the user is revoked. -/
def revokeAll (now userId : Nat) (s : Store) : Store :=
  { s with sessions := s.sessions.update fun row =>
      if row.userId = userId ∧ row.status = .active then
        { row with status := .revoked, revokedAt := some now }
      else row }

/-- The row of a user with a new password; `oneTime` is when it runs out. -/
def User.renewed (u : User) (now : Nat) (passwordHash : String) (credential : Nat)
    (oneTime : Option Nat) : User :=
  { u with
    passwordHash, passwordChangedAt := now, passwordChangeRequired := oneTime.isSome
    credentialExpiresAt := oneTime, credentialUsedAt := none
    failedLoginCount := 0, lockedUntil := none, credential }

/-- `change_password`, with the length check the service makes first. -/
def changePassword (hasher : PasswordHasher) (settings : AuthSettings)
    (now salt userId tenantId sessionId : Nat) (currentPassword newPassword : String)
    (s : Store) : Except AuthError Store := do
  raiseIf (¬ (12 ≤ PyStr.len newPassword ∧ PyStr.len newPassword ≤ 128))
    .passwordPolicyInvalid
  let u ← orRaise ((s.users.get userId).filter fun u => u.status == .active) .sessionNotFound
  let _ ← orRaise ((s.sessions.get sessionId).filter fun row =>
      row.userId == userId && row.tenantId == tenantId && row.status == .active)
    .sessionNotFound
  raiseIf (hasher.verifyOrDummy (some u.passwordHash) currentPassword = false)
    .currentPasswordInvalid
  let credential := s.credentials.nextId
  let users := s.users.modify userId fun u =>
    u.renewed now (hasher.hash salt newPassword) credential none
  let s := { s with users, credentials := s.credentials.insert ⟨userId, false⟩ }
  return insertSession settings now userId tenantId credential (revokeAll now userId s)

/-- `revoke_session`. -/
def revokeSession (now sessionId : Nat) (s : Store) : Store :=
  { s with sessions := s.sessions.modify sessionId fun row =>
      if row.status = .active then { row with status := .revoked, revokedAt := some now }
      else row }

/-- `revoke_user_session`. -/
def revokeUserSession (now tenantId userId sessionId : Nat) (s : Store) : Store :=
  { s with sessions := s.sessions.modify sessionId fun row =>
      if row.tenantId = tenantId ∧ row.userId = userId ∧ row.status = .active then
        { row with status := .revoked, revokedAt := some now }
      else row }

/-- The `UPDATE` that expires stale rows. -/
def AuthSession.expireStale (settings : AuthSettings) (now : Nat) (row : AuthSession) :
    AuthSession :=
  if row.status = .active ∧ (row.expiresAt ≤ now ∨ row.lastSeenAt = none
      ∨ row.lastSeenAt.any (· + settings.sessionIdleTtl ≤ now) = true) then
    { row with status := .expired }
  else row

/-- `current_auth`: the session is touched, or expired when it is stale;
`admits` is what the joined user, membership and tenant rows come to. -/
def currentAuth (settings : AuthSettings) (now sessionId : Nat) (admits : Bool)
    (s : Store) : Store :=
  { s with sessions := s.sessions.modify sessionId fun row =>
      if row.status = .active ∧ now < row.expiresAt
          ∧ row.lastSeenAt.any (now < · + settings.sessionIdleTtl) = true
          ∧ admits = true then
        if row.lastSeenAt.any (· + settings.sessionTouchInterval ≤ now) = true then
          { row with lastSeenAt := some now }
        else row
      else row.expireStale settings now }

/-- The writes of `list_user_sessions`. -/
def listUserSessions (settings : AuthSettings) (now tenantId userId : Nat)
    (s : Store) : Store :=
  { s with sessions := s.sessions.update fun row =>
      if row.tenantId = tenantId ∧ row.userId = userId then row.expireStale settings now
      else row }

-- ============================================================== accounts

/-- A new row of `Users`. -/
def newUser (now : Nat) (email passwordHash : String) (credential : Nat)
    (oneTime : Option Nat) : User :=
  { email, passwordHash, status := .active, failedLoginCount := 0, lockedUntil := none
    passwordChangedAt := now, passwordChangeRequired := oneTime.isSome
    credentialExpiresAt := oneTime, credentialUsedAt := none, credential }

/-- The insert of a user, with its credential. -/
def insertUser (now : Nat) (email passwordHash : String) (oneTime : Option Nat)
    (s : Store) : Store :=
  let row := newUser now email passwordHash s.credentials.nextId oneTime
  { s with
    users := s.users.insert row
    credentials := s.credentials.insert ⟨s.users.nextId, oneTime.isSome⟩ }

/-- `register`, whose tenant is new. -/
def register (settings : AuthSettings) (now tenantId : Nat) (email passwordHash : String)
    (s : Store) : Except AuthError Store := do
  raiseIf ((s.users.find fun u => u.email == email) ≠ none) .registrationConflict
  return insertSession settings now s.users.nextId tenantId s.credentials.nextId
    (insertUser now email passwordHash none s)

/-- `ONE_TIME_CREDENTIAL_TTL`, in microseconds. -/
def oneTimeCredentialTtl : Nat := 24 * 60 * 60 * 1000000

/-- The operator's `create`. -/
def operatorCreate (now : Nat) (email passwordHash : String) (s : Store) :
    Except AuthError Store := do
  raiseIf ((s.users.find fun u => u.email == email) ≠ none)
    (.valueError "account already exists")
  return insertUser now email passwordHash (some (now + oneTimeCredentialTtl)) s

/-- The operator's `reset`. -/
def operatorReset (directory : Directory) (now : Nat) (email passwordHash : String)
    (s : Store) : Except AuthError Store := do
  let (id, _) ← orRaise ((s.users.find fun u => u.email == email).filter fun e =>
      e.2.status == .active) (.valueError "active account was not found")
  raiseIf (directory id = []) (.valueError "active account tenant was not found")
  let credential := s.credentials.nextId
  let users := s.users.modify id fun u =>
    u.renewed now passwordHash credential (some (now + oneTimeCredentialTtl))
  let s := { s with users, credentials := s.credentials.insert ⟨id, true⟩ }
  return revokeAll now id s

end Mosaic.Auth
