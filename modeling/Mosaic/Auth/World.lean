/-
Logins beside everything else that writes accounts and sessions.

A login is two transactions (`AuthService.login`, app/auth/service.py):
`authenticate` verifies the password and ends with a `LoginRecord`,
`create_session` inserts the session; whatever lies between them (the
rate limiter, a crash) only delays or drops the second. `World.logins`
are the calls between the two, each with the credential it verified, and
`World.uses` is history: every time a one-time credential was marked
used, the credential the row then held and the one the login verified.
-/
import Mosaic.Auth.Repository
import Mosaic.Lib.Db
import Mosaic.Lib.Run

namespace Mosaic.Auth

open Lib

/-- A login past `authenticate`; `waiting` until its second transaction. -/
structure Login where
  record : LoginRecord
  verified : Nat
  waiting : Bool
deriving Repr, DecidableEq

structure World where
  store : Store
  logins : Table Login
  uses : List (Nat × Nat)
deriving Repr, DecidableEq

structure Config where
  hasher : PasswordHasher
  settings : AuthSettings

inductive Act
  | register (now tenantId : Nat) (email passwordHash : String)
  | operatorCreate (now : Nat) (email passwordHash : String)
  | operatorReset (directory : Directory) (now : Nat) (email passwordHash : String)
  | authenticate (directory : Directory) (now salt : Nat) (account password : String)
      (tenantSlug : Option String)
  | createSession (login now : Nat) (db : DbOutcome)
  | changePassword (now salt userId tenantId sessionId : Nat)
      (currentPassword newPassword : String)
  | revokeSession (now sessionId : Nat)
  | revokeUserSession (now tenantId userId sessionId : Nat)
  | currentAuth (now sessionId : Nat) (admits : Bool)
  | listUserSessions (now tenantId userId : Nat)

/-- A transaction that raises leaves the store as it was. -/
def World.commit (w : World) (result : Except AuthError Store) : World :=
  match result with
  | .ok store => { w with store }
  | .error _ => w

/-- The second transaction of a login. -/
def World.finish (cfg : Config) (w : World) (id now : Nat) (db : DbOutcome) : World :=
  match (w.logins.get id).filter fun l => l.waiting with
  | none => w
  | some login =>
      let w := { w with logins := w.logins.modify id fun l => { l with waiting := false } }
      match createSession cfg.settings now login.record login.verified w.store with
      | .error _ => w
      | .ok store =>
          if db = .rolledBack then w
          else
            let uses := match w.store.users.get login.record.userId with
              | some u =>
                  if login.record.passwordChangeRequired then
                    w.uses ++ [(u.credential, login.verified)]
                  else w.uses
              | none => w.uses
            { w with store, uses }

def authStep (cfg : Config) (w : World) : Act → World
  | .register now tenantId email passwordHash =>
      w.commit (Auth.register cfg.settings now tenantId email passwordHash w.store)
  | .operatorCreate now email passwordHash =>
      w.commit (Auth.operatorCreate now email passwordHash w.store)
  | .operatorReset directory now email passwordHash =>
      w.commit (Auth.operatorReset directory now email passwordHash w.store)
  | .authenticate directory now salt account password tenantSlug =>
      let (verdict, store) := Auth.authenticate cfg.hasher cfg.settings directory now salt
        account password tenantSlug w.store
      match verdict, w.store.users.find fun u => u.email == account with
      | .admitted record, some (_, u) =>
          let login : Login := { record, verified := u.credential, waiting := true }
          { w with store, logins := w.logins.insert login }
      | _, _ => { w with store }
  | .createSession login now db => w.finish cfg login now db
  | .changePassword now salt userId tenantId sessionId currentPassword newPassword =>
      w.commit (Auth.changePassword cfg.hasher cfg.settings now salt userId tenantId
        sessionId currentPassword newPassword w.store)
  | .revokeSession now sessionId =>
      { w with store := Auth.revokeSession now sessionId w.store }
  | .revokeUserSession now tenantId userId sessionId =>
      { w with store := Auth.revokeUserSession now tenantId userId sessionId w.store }
  | .currentAuth now sessionId admits =>
      { w with store := Auth.currentAuth cfg.settings now sessionId admits w.store }
  | .listUserSessions now tenantId userId =>
      { w with store := Auth.listUserSessions cfg.settings now tenantId userId w.store }

/-- Accounts, and nobody has logged in yet. -/
structure Opening (w : World) : Prop where
  sessions : w.store.sessions = Table.empty
  logins : w.logins = Table.empty
  uses : w.uses = []
  credentials : ∀ id u, w.store.users.get id = some u →
    w.store.credentials.get u.credential = some ⟨id, u.passwordChangeRequired⟩

/-- No accounts at all. -/
def World.initial : World :=
  { store := { users := Table.empty, sessions := Table.empty, credentials := Table.empty }
    logins := Table.empty, uses := [] }

theorem initial_opening : Opening World.initial :=
  ⟨rfl, rfl, rfl, by simp [World.initial]⟩

end Mosaic.Auth
