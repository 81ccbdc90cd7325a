/-
What the transactions do to accounts, in four kinds.

Whatever an act is, it moves the store by at most two of these: rows are
touched in what no statement here reads (`Kept`), a user joins, a user
gets a new password and loses its sessions, a session of the password in
force is opened (`Move`). The second transaction of a login is the one
act that is none of them: it opens a session of the password the login
verified (`finish_cases`).
-/
import Mosaic.Auth.World

namespace Mosaic.Auth

open Lib

variable {cfg : Config} {s s' : Store} {w w' : World} {id now : Nat} {u u' : User}
  {row row' : AuthSession}

-- ================================================================== kept

/-- Passwords, owners and what is revoked stay as they are. -/
structure Kept (s s' : Store) : Prop where
  credentials : s'.credentials = s.credentials
  users : ∀ id u', s'.users.get id = some u' → ∃ u, s.users.get id = some u
    ∧ u'.credential = u.credential ∧ u'.passwordChangeRequired = u.passwordChangeRequired
    ∧ u'.credentialUsedAt = u.credentialUsedAt
  present : ∀ id u, s.users.get id = some u → ∃ u', s'.users.get id = some u'
  owners : s'.sessions.rows.map (fun r => (r.userId, r.verified))
    = s.sessions.rows.map (fun r => (r.userId, r.verified))
  active : ∀ id row', s'.sessions.get id = some row' → row'.status = .active →
    ∃ row, s.sessions.get id = some row ∧ row.status = .active
      ∧ row'.userId = row.userId ∧ row'.verified = row.verified

theorem Kept.refl (s : Store) : Kept s s :=
  ⟨rfl, fun _ u' hu => ⟨u', hu, rfl, rfl, rfl⟩, fun _ u hu => ⟨u, hu⟩, rfl,
    fun _ row' hrow hst => ⟨row', hrow, hst, rfl, rfl⟩⟩

/-- The users as they were: one row rewritten in what does not matter. -/
theorem kept_of_user (hu : s.users.get id = some u) (hcred : u'.credential = u.credential)
    (hreq : u'.passwordChangeRequired = u.passwordChangeRequired)
    (hused : u'.credentialUsedAt = u.credentialUsedAt) :
    Kept s { s with users := s.users.modify id fun _ => u' } where
  credentials := rfl
  users := by
    intro j x hx
    rcases Table.get_modify_cases hx with ⟨rfl, y, hy, rfl⟩ | ⟨-, hx⟩
    · exact ⟨u, hu, hcred, hreq, hused⟩
    · exact ⟨x, hx, rfl, rfl, rfl⟩
  present := fun j x hx => Table.get_modify_of_some hx id _
  owners := rfl
  active := fun _ row' hrow hst => ⟨row', hrow, hst, rfl, rfl⟩

/-- A rewrite of session rows that opens none of them again. -/
structure Closing (f : AuthSession → AuthSession) : Prop where
  userId : ∀ r, (f r).userId = r.userId
  verified : ∀ r, (f r).verified = r.verified
  active : ∀ r, (f r).status = .active → r.status = .active

theorem Closing.revoke (c : AuthSession → Prop) [DecidablePred c] (now : Nat) :
    Closing fun r => if c r then { r with status := .revoked, revokedAt := some now }
      else r := by
  constructor
  · intro r
    split <;> rfl
  · intro r
    split <;> rfl
  · intro r hr
    split at hr
    · cases hr
    · exact hr

theorem expireStale_closing (settings : AuthSettings) (now : Nat) :
    Closing (AuthSession.expireStale settings now) := by
  constructor
  · intro r
    unfold AuthSession.expireStale
    split <;> rfl
  · intro r
    unfold AuthSession.expireStale
    split <;> rfl
  · intro r hr
    unfold AuthSession.expireStale at hr
    split at hr
    · cases hr
    · exact hr

theorem Closing.modify {f : AuthSession → AuthSession} (hf : Closing f) (s : Store)
    (id : Nat) : Kept s { s with sessions := s.sessions.modify id f } where
  credentials := rfl
  users := fun _ u' hu => ⟨u', hu, rfl, rfl, rfl⟩
  present := fun _ u hu => ⟨u, hu⟩
  owners := by
    show (s.sessions.rows.modify id f).map _ = _
    apply List.ext_getElem?
    intro j
    rw [List.getElem?_map, List.getElem?_map, List.getElem?_modify]
    split
    · cases s.sessions.rows[j]? with
      | none => rfl
      | some r => simp [hf.userId, hf.verified]
    · cases s.sessions.rows[j]? <;> rfl
  active := by
    intro j row' hrow hst
    rcases Table.get_modify_cases hrow with ⟨rfl, row, hr, rfl⟩ | ⟨-, hr⟩
    · exact ⟨row, hr, hf.active row hst, hf.userId row, hf.verified row⟩
    · exact ⟨row', hr, hst, rfl, rfl⟩

theorem Closing.update {f : AuthSession → AuthSession} (hf : Closing f) (s : Store) :
    Kept s { s with sessions := s.sessions.update f } where
  credentials := rfl
  users := fun _ u' hu => ⟨u', hu, rfl, rfl, rfl⟩
  present := fun _ u hu => ⟨u, hu⟩
  owners := by
    show (s.sessions.rows.map f).map _ = _
    rw [List.map_map]
    apply List.map_congr_left
    intro r _
    show ((f r).userId, (f r).verified) = _
    rw [hf.userId, hf.verified]
  active := by
    intro j row' hrow hst
    rw [Table.get_update] at hrow
    obtain ⟨row, hr, rfl⟩ := Option.map_eq_some_iff.mp hrow
    exact ⟨row, hr, hf.active row hst, hf.userId row, hf.verified row⟩

-- ================================================================= moves

/-- The user has a new password, and no session is left open. -/
structure Renewed (s s' : Store) (id : Nat) (u u' : User) : Prop where
  users : Table.Replaced s.users s'.users id u u'
  credential : u'.credential = s.credentials.nextId
  unused : u'.credentialUsedAt = none
  credentials : s'.credentials = s.credentials.insert ⟨id, u'.passwordChangeRequired⟩
  owners : s'.sessions.rows.map (fun r => (r.userId, r.verified))
    = s.sessions.rows.map (fun r => (r.userId, r.verified))
  active : ∀ i row', s'.sessions.get i = some row' → row'.status = .active →
    row'.userId ≠ id ∧ ∃ row, s.sessions.get i = some row ∧ row.status = .active
      ∧ row'.userId = row.userId ∧ row'.verified = row.verified

inductive Move (s s' : Store) : Prop
  | kept (h : Kept s s')
  | joined (u : User) (credential : u.credential = s.credentials.nextId)
      (unused : u.credentialUsedAt = none) (users : s'.users = s.users.insert u)
      (credentials : s'.credentials
        = s.credentials.insert ⟨s.users.nextId, u.passwordChangeRequired⟩)
      (sessions : s'.sessions = s.sessions)
  | renewed (id : Nat) (u u' : User) (h : Renewed s s' id u u')
  | session (u : User) (row : AuthSession) (user : s.users.get row.userId = some u)
      (settled : u.passwordChangeRequired = false) (verified : row.verified = u.credential)
      (h : s' = { s with sessions := s.sessions.insert row })

theorem insertUser_move (now : Nat) (email passwordHash : String) (oneTime : Option Nat)
    (s : Store) : Move s (insertUser now email passwordHash oneTime s) :=
  .joined (newUser now email passwordHash s.credentials.nextId oneTime) rfl rfl rfl rfl rfl

theorem revokeAll_renewed (now : Nat) (hash : String) (oneTime : Option Nat)
    (hu : s.users.get id = some u) :
    Renewed s (revokeAll now id
      { s with
        users := s.users.modify id fun u => u.renewed now hash s.credentials.nextId oneTime
        credentials := s.credentials.insert ⟨id, oneTime.isSome⟩ })
      id u (u.renewed now hash s.credentials.nextId oneTime) where
  users := Table.replaced_modify hu _
  credential := rfl
  unused := rfl
  credentials := rfl
  owners := ((Closing.revoke _ now).update s).owners
  active := by
    intro i row' hrow hst
    refine ⟨?_, ((Closing.revoke _ now).update s).active i row' hrow hst⟩
    rintro rfl
    have hget : (s.sessions.update fun row =>
        if row.userId = row'.userId ∧ row.status = .active then
          { row with status := .revoked, revokedAt := some now }
        else row).get i = some row' := hrow
    rw [Table.get_update] at hget
    obtain ⟨row, -, hrow'⟩ := Option.map_eq_some_iff.mp hget
    split at hrow'
    · rw [← hrow'] at hst
      cases hst
    · next hne =>
        rw [hrow'] at hne
        exact hne ⟨rfl, hst⟩

/-- What a transaction other than the end of a login does. -/
theorem register_moves {settings : AuthSettings} {tenantId : Nat} {email hash : String}
    (h : register settings now tenantId email hash s = .ok s') :
    ∃ s₁, Move s s₁ ∧ Move s₁ s' := by
  unfold register at h
  simp only [bind_eq_ok, pure_eq_ok] at h
  obtain ⟨-, -, rfl⟩ := h
  refine ⟨_, insertUser_move now email hash none s, ?_⟩
  refine .session (newUser now email hash s.credentials.nextId none) _ ?_ rfl rfl rfl
  exact Table.get_insert_self _ _

theorem operatorCreate_move {email hash : String}
    (h : operatorCreate now email hash s = .ok s') : Move s s' := by
  unfold operatorCreate at h
  simp only [bind_eq_ok, pure_eq_ok] at h
  obtain ⟨-, -, rfl⟩ := h
  exact insertUser_move _ _ _ _ _

theorem operatorReset_move {directory : Directory} {email hash : String}
    (h : operatorReset directory now email hash s = .ok s') : Move s s' := by
  unfold operatorReset at h
  simp only [bind_eq_ok, orRaise_eq_ok, pure_eq_ok] at h
  obtain ⟨⟨id, u⟩, hfind, -, -, rfl⟩ := h
  obtain ⟨hfind, -⟩ := Option.filter_eq_some_iff.mp hfind
  exact .renewed id u _ (revokeAll_renewed _ _ _ (Table.find_some hfind).1)

theorem changePassword_moves {settings : AuthSettings} {hasher : PasswordHasher}
    {salt userId tenantId sessionId : Nat} {current new : String}
    (h : changePassword hasher settings now salt userId tenantId sessionId current new s
      = .ok s') :
    ∃ s₁, Move s s₁ ∧ Move s₁ s' := by
  unfold changePassword at h
  simp only [bind_eq_ok, orRaise_eq_ok, pure_eq_ok] at h
  obtain ⟨-, -, u, hu, -, -, -, -, rfl⟩ := h
  obtain ⟨hu, -⟩ := Option.filter_eq_some_iff.mp hu
  have hrenewed := revokeAll_renewed now (hasher.hash salt new) none hu
  refine ⟨_, .renewed userId u _ hrenewed, ?_⟩
  exact .session (u.renewed now (hasher.hash salt new) s.credentials.nextId none) _
    hrenewed.users.new rfl rfl rfl

-- ========================================================== authenticate

/-- Authentication leaves the password in force; whoever it admits is told
whether that password is a one-time credential. -/
theorem authenticateUser_kept (hasher : PasswordHasher) (settings : AuthSettings)
    (directory : Directory) (now salt : Nat) (password : String)
    (tenantSlug : Option String) (id : Nat) (u : User) :
    (authenticateUser hasher settings directory now salt password tenantSlug id u).2.credential
        = u.credential
      ∧ (authenticateUser hasher settings directory now salt password tenantSlug id
          u).2.passwordChangeRequired = u.passwordChangeRequired
      ∧ (authenticateUser hasher settings directory now salt password tenantSlug id
          u).2.credentialUsedAt = u.credentialUsedAt
      ∧ ∀ record, (authenticateUser hasher settings directory now salt password tenantSlug id
            u).1 = .admitted record →
          record.userId = id ∧ record.passwordChangeRequired = u.passwordChangeRequired := by
  have hunlocked : (u.unlocked now).credential = u.credential
      ∧ (u.unlocked now).passwordChangeRequired = u.passwordChangeRequired
      ∧ (u.unlocked now).credentialUsedAt = u.credentialUsedAt := by
    unfold User.unlocked
    split <;> exact ⟨rfl, rfl, rfl⟩
  obtain ⟨hcred, hreq, hused⟩ := hunlocked
  unfold authenticateUser
  dsimp only
  split
  · exact ⟨rfl, rfl, rfl, by simp⟩
  · split
    · exact ⟨hcred, hreq, hused, by simp⟩
    · split
      · exact ⟨hcred, hreq, hused, by simp⟩
      · split
        · exact ⟨hcred, hreq, hused, by simp⟩
        · split
          · exact ⟨hcred, hreq, hused, by simp⟩
          · split
            · exact ⟨hcred, hreq, hused, by simp⟩
            · refine ⟨hcred, hreq, hused, fun record hrecord => ?_⟩
              obtain rfl := Verdict.admitted.inj hrecord
              exact ⟨rfl, hreq⟩

/-- The user row an authentication read. -/
theorem authenticate_kept {hasher : PasswordHasher} {settings : AuthSettings}
    {directory : Directory} {salt : Nat} {account password : String}
    {tenantSlug : Option String} {verdict : Verdict}
    (h : authenticate hasher settings directory now salt account password tenantSlug s
      = (verdict, s')) :
    Kept s s' ∧ ∀ record id u, verdict = .admitted record →
      s.users.find (fun u => u.email == account) = some (id, u) →
      record.userId = id ∧ record.passwordChangeRequired = u.passwordChangeRequired := by
  unfold authenticate at h
  cases hfind : s.users.find fun u => u.email == account with
  | none =>
      rw [hfind] at h
      obtain ⟨rfl, rfl⟩ := h
      exact ⟨Kept.refl s, by simp⟩
  | some e =>
      obtain ⟨id, u⟩ := e
      rw [hfind] at h
      obtain ⟨rfl, rfl⟩ := h
      obtain ⟨hcred, hreq, hused, hadmitted⟩ := authenticateUser_kept hasher settings
        directory now salt password tenantSlug id u
      refine ⟨kept_of_user (Table.find_some hfind).1 hcred hreq hused, ?_⟩
      intro record j x hverdict hx
      obtain ⟨rfl, rfl⟩ := Prod.mk.inj (Option.some.inj hx)
      exact hadmitted record hverdict

-- ================================================================ finish

/-- The session a login opens, and the state of its one-time credential. -/
structure Opened (s s' : Store) (now : Nat) (login : Login) (row : AuthSession) : Prop where
  userId : row.userId = login.record.userId
  verified : row.verified = login.verified
  active : row.status = .active
  sessions : s'.sessions = s.sessions.insert row
  credentials : s'.credentials = s.credentials
  users : s'.users = if login.record.passwordChangeRequired then
      s.users.modify login.record.userId fun u => { u with credentialUsedAt := some now }
    else s.users
  consumed : login.record.passwordChangeRequired = true →
    ∃ u, s.users.get login.record.userId = some u ∧ u.status = .active
      ∧ u.consumable now = true

theorem createSession_opened {settings : AuthSettings} {login : Login}
    (h : createSession settings now login.record login.verified s = .ok s') :
    ∃ row, Opened s s' now login row := by
  unfold createSession at h
  by_cases hone : login.record.passwordChangeRequired = true
  · rw [if_pos hone] at h
    simp only [bind_eq_ok, orRaise_eq_ok, raiseIf_eq_ok, pure_eq_ok] at h
    obtain ⟨u, hu, -, hok, rfl⟩ := h
    obtain ⟨hu, hactive⟩ := Option.filter_eq_some_iff.mp hu
    exact ⟨_, rfl, rfl, rfl, rfl, rfl, by rw [if_pos hone]; rfl,
      fun _ => ⟨u, hu, by simpa using hactive, by simpa using hok⟩⟩
  · rw [if_neg hone, pure_eq_ok] at h
    subst h
    exact ⟨_, rfl, rfl, rfl, rfl, rfl, by rw [if_neg hone]; rfl,
      fun h => absurd h hone⟩

/-- A login is refused its session only over a one-time credential. -/
theorem createSession_isOk (settings : AuthSettings) {login : Login}
    (hu : s.users.get login.record.userId = some u)
    (hfree : login.record.passwordChangeRequired = true →
      u.status = .active ∧ u.consumable now = true) :
    ∃ s', createSession settings now login.record login.verified s = .ok s' := by
  unfold createSession
  by_cases hone : login.record.passwordChangeRequired = true
  · obtain ⟨hactive, hcons⟩ := hfree hone
    have hlocked : (s.users.get login.record.userId).filter (fun u => u.status == .active)
        = some u := by
      rw [hu]
      simp [Option.filter, hactive]
    rw [if_pos hone, hlocked]
    simp only [orRaise, raiseIf, hcons, bind, Except.bind]
    exact ⟨_, rfl⟩
  · rw [if_neg hone]
    exact ⟨_, rfl⟩

end Mosaic.Auth
