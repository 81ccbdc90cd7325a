/-
Sessions and the passwords behind them.

# Two laws

`Fresh`: every active session was opened with the password its user has
now, so a change of the password ends the ones opened before it.
`Spent`: a one-time credential opens one session at most, and is marked
used by a login that verified it.

# Where they fail

A login verifies a password in one transaction and opens its session in
another, which looks at the user row only for a one-time credential, and
then not at which one. Both laws hold along a run exactly as long as no
password is changed between the two (`fresh_iff`, `spent_iff`): the first
for every login, the second for the logins with a one-time credential.
-/
import Mosaic.Auth.Proofs.Moves

namespace Mosaic.Auth

open Lib

variable {cfg : Config} {s s' : Store} {w w' : World} {id now : Nat} {u u' : User}
  {row row' : AuthSession}

-- ============================================================ invariants

/-- The passwords the sessions were opened with. -/
def Store.owners (s : Store) : List (Nat × Nat) :=
  s.sessions.rows.map fun r => (r.userId, r.verified)

/-- History and rows agree. -/
structure StoreInv (s : Store) : Prop where
  owned : ∀ id u, s.users.get id = some u →
    s.credentials.get u.credential = some ⟨id, u.passwordChangeRequired⟩
  opened : ∀ p ∈ s.owners, (∃ u, s.users.get p.1 = some u) ∧ p.2 < s.credentials.nextId

/-- A login verified a password of its user. -/
def Login.Genuine (l : Login) (s : Store) : Prop :=
  (∃ u, s.users.get l.record.userId = some u)
    ∧ s.credentials.get l.verified
      = some ⟨l.record.userId, l.record.passwordChangeRequired⟩

/-- Every active session was opened with the password its user has now. -/
def Fresh (s : Store) : Prop :=
  ∀ i row, s.sessions.get i = some row → row.status = .active →
    ∃ u, s.users.get row.userId = some u ∧ u.credential = row.verified

/-- A one-time credential has opened one session at most, and none while it is
unused. -/
structure Single (s : Store) : Prop where
  once : ∀ c cr, s.credentials.get c = some cr → cr.oneTime = true →
    (s.owners.map (·.2)).count c ≤ 1
  unspent : ∀ id u, s.users.get id = some u → u.passwordChangeRequired = true →
    u.credentialUsedAt = none → u.credential ∉ s.owners.map (·.2)

theorem StoreInv.credential_lt (h : StoreInv s) (hu : s.users.get id = some u) :
    u.credential < s.credentials.nextId :=
  Table.lt_nextId (h.owned id u hu)

theorem StoreInv.fresh_unopened (h : StoreInv s) :
    s.credentials.nextId ∉ s.owners.map (·.2) := by
  intro hmem
  obtain ⟨p, hp, heq⟩ := List.mem_map.mp hmem
  have hlt := (h.opened p hp).2
  omega

-- ================================================================= moves

theorem Move.user_present (h : Move s s') (hu : s.users.get id = some u) :
    ∃ u', s'.users.get id = some u' := by
  cases h with
  | kept hk => exact hk.present id u hu
  | joined v hcred hunused husers hcreds hsess =>
      rw [husers]
      exact ⟨u, Table.get_insert_of_some hu v⟩
  | renewed j v v' hr =>
      by_cases hj : id = j
      · subst hj
        exact ⟨v', hr.users.new⟩
      · exact ⟨u, (hr.users.other hj).trans hu⟩
  | session v r hv hset hver heq =>
      subst heq
      exact ⟨u, hu⟩

theorem Move.credential_kept (h : Move s s') {c : Nat} {cr : Credential}
    (hc : s.credentials.get c = some cr) : s'.credentials.get c = some cr := by
  cases h with
  | kept hk => rw [hk.credentials]; exact hc
  | joined v hcred hunused husers hcreds hsess =>
      rw [hcreds]
      exact Table.get_insert_of_some hc _
  | renewed j v v' hr =>
      rw [hr.credentials]
      exact Table.get_insert_of_some hc _
  | session v r hv hset hver heq =>
      subst heq
      exact hc

theorem Move.inv (h : Move s s') (hinv : StoreInv s) : StoreInv s' := by
  have hpresent : ∀ {j}, (∃ u, s.users.get j = some u) → ∃ u, s'.users.get j = some u :=
    fun ⟨_, hu⟩ => h.user_present hu
  cases h with
  | kept hk =>
      constructor
      · intro id u' hu'
        obtain ⟨u, hu, hcred, hreq, -⟩ := hk.users id u' hu'
        rw [hk.credentials, hcred, hreq]
        exact hinv.owned id u hu
      · intro p hp
        unfold Store.owners at hp
        rw [hk.owners] at hp
        obtain ⟨hu, hlt⟩ := hinv.opened p hp
        rw [hk.credentials]
        exact ⟨hpresent hu, hlt⟩
  | joined v hcred hunused husers hcreds hsess =>
      constructor
      · intro id u hu
        rw [husers] at hu
        rw [hcreds]
        rcases Table.get_insert_cases hu with ⟨rfl, rfl⟩ | hu
        · rw [hcred]
          exact Table.get_insert_self _ _
        · exact Table.get_insert_of_some (hinv.owned id u hu) _
      · intro p hp
        unfold Store.owners at hp
        rw [hsess] at hp
        obtain ⟨hu, hlt⟩ := hinv.opened p hp
        rw [hcreds, Table.nextId_insert]
        exact ⟨hpresent hu, by omega⟩
  | renewed j v v' hr =>
      constructor
      · intro id u hu
        rw [hr.credentials]
        rcases hr.users.cases hu with ⟨rfl, rfl⟩ | ⟨-, hu⟩
        · rw [hr.credential]
          exact Table.get_insert_self _ _
        · exact Table.get_insert_of_some (hinv.owned id u hu) _
      · intro p hp
        unfold Store.owners at hp
        rw [hr.owners] at hp
        obtain ⟨hu, hlt⟩ := hinv.opened p hp
        rw [hr.credentials, Table.nextId_insert]
        exact ⟨hpresent hu, by omega⟩
  | session v r hv hset hver heq =>
      subst heq
      refine ⟨hinv.owned, fun p hp => ?_⟩
      simp only [Store.owners, Table.rows_insert, List.map_append, List.map_cons,
        List.map_nil, List.mem_append, List.mem_singleton] at hp
      rcases hp with hp | rfl
      · exact hinv.opened p hp
      · refine ⟨⟨v, hv⟩, ?_⟩
        rw [hver]
        exact hinv.credential_lt hv

theorem Move.fresh (h : Move s s') (hf : Fresh s) : Fresh s' := by
  intro i row' hrow hst
  cases h with
  | kept hk =>
      obtain ⟨row, hrow, hst, huser, hver⟩ := hk.active i row' hrow hst
      obtain ⟨u, hu, hcred⟩ := hf i row hrow hst
      obtain ⟨u', hu'⟩ := hk.present _ u hu
      obtain ⟨y, hy, hc, -⟩ := hk.users _ u' hu'
      obtain rfl := Option.some.inj (hu.symm.trans hy)
      exact ⟨u', huser ▸ hu', hc.trans (hcred.trans hver.symm)⟩
  | joined v hcred hunused husers hcreds hsess =>
      rw [hsess] at hrow
      obtain ⟨u, hu, hc⟩ := hf i row' hrow hst
      rw [husers]
      exact ⟨u, Table.get_insert_of_some hu v, hc⟩
  | renewed j v v' hr =>
      obtain ⟨hne, row, hrow, hst, huser, hver⟩ := hr.active i row' hrow hst
      obtain ⟨u, hu, hc⟩ := hf i row hrow hst
      refine ⟨u, ?_, hc.trans hver.symm⟩
      rw [hr.users.other hne, huser]
      exact hu
  | session v r hv hset hver heq =>
      subst heq
      rcases Table.get_insert_cases hrow with ⟨-, rfl⟩ | hrow
      · exact ⟨v, hv, hver.symm⟩
      · exact hf i row' hrow hst

theorem Move.single (h : Move s s') (hinv : StoreInv s) (hs : Single s) : Single s' := by
  -- a new credential has opened no session yet
  have hnew : ∀ {c : Nat} {cr x : Credential}, s.credentials.insert x = s'.credentials →
      s'.owners = s.owners → s'.credentials.get c = some cr → cr.oneTime = true →
      (s'.owners.map (·.2)).count c ≤ 1 := by
    intro c cr x hcreds howners hc hone
    rw [howners]
    rw [← hcreds] at hc
    rcases Table.get_insert_cases hc with ⟨rfl, -⟩ | hc
    · rw [List.count_eq_zero_of_not_mem hinv.fresh_unopened]
      omega
    · exact hs.once c cr hc hone
  cases h with
  | kept hk =>
      have howners : s'.owners = s.owners := hk.owners
      refine ⟨fun c cr hc hone => ?_, fun id u' hu' hreq hused => ?_⟩
      · rw [howners]
        rw [hk.credentials] at hc
        exact hs.once c cr hc hone
      · obtain ⟨u, hu, h₁, h₂, h₃⟩ := hk.users id u' hu'
        rw [howners, h₁]
        exact hs.unspent id u hu (h₂ ▸ hreq) (h₃ ▸ hused)
  | joined v hcred hunused husers hcreds hsess =>
      have howners : s'.owners = s.owners := by
        unfold Store.owners
        rw [hsess]
      refine ⟨fun c cr hc hone => hnew hcreds.symm howners hc hone,
        fun id u hu hreq hused => ?_⟩
      rw [husers] at hu
      rw [howners]
      rcases Table.get_insert_cases hu with ⟨-, rfl⟩ | hu
      · rw [hcred]
        exact hinv.fresh_unopened
      · exact hs.unspent id u hu hreq hused
  | renewed j v v' hr =>
      have howners : s'.owners = s.owners := hr.owners
      refine ⟨fun c cr hc hone => hnew hr.credentials.symm howners hc hone,
        fun id u hu hreq hused => ?_⟩
      rw [howners]
      rcases hr.users.cases hu with ⟨-, rfl⟩ | ⟨-, hu⟩
      · rw [hr.credential]
        exact hinv.fresh_unopened
      · exact hs.unspent id u hu hreq hused
  | session v r hv hset hver heq =>
      subst heq
      have howned := hinv.owned _ v hv
      rw [hset] at howned
      have howners : Store.owners { s with sessions := s.sessions.insert r }
          = s.owners ++ [(r.userId, r.verified)] := by
        simp [Store.owners]
      refine ⟨fun c cr hc hone => ?_, fun id u hu hreq hused => ?_⟩
      · have hne : c ≠ r.verified := by
          rintro rfl
          rw [hver] at hc
          obtain rfl := Option.some.inj (howned.symm.trans hc)
          cases hone
        have hzero : ([(r.userId, r.verified)].map (·.2)).count c = 0 :=
          List.count_eq_zero_of_not_mem (by simpa using hne)
        rw [howners, List.map_append, List.count_append, hzero, Nat.add_zero]
        exact hs.once c cr hc hone
      · rw [howners, List.map_append, List.mem_append]
        rintro (hmem | hmem)
        · exact hs.unspent id u hu hreq hused hmem
        · have heq : u.credential = v.credential := by
            rw [← hver]
            simpa using hmem
          have hu' := hinv.owned id u hu
          rw [heq, howned, hreq] at hu'
          cases hu'

-- ================================================================= logins

theorem Login.Genuine.move {l : Login} (h : l.Genuine s) (hm : Move s s') :
    l.Genuine s' := by
  obtain ⟨⟨u, hu⟩, hc⟩ := h
  exact ⟨hm.user_present hu, hm.credential_kept hc⟩

/-- The accounts and the logins under way. -/
structure WorldInv (w : World) : Prop where
  store : StoreInv w.store
  logins : ∀ i l, w.logins.get i = some l → l.Genuine w.store

theorem WorldInv.move (h : WorldInv w) (hm : Move w.store s') :
    WorldInv { w with store := s' } :=
  ⟨hm.inv h.store, fun i l hl => (h.logins i l hl).move hm⟩

/-- An act is two moves of the store at most, a login that begins, or one that
ends. -/
theorem authStep_cases (cfg : Config) (w : World) (act : Act) :
    (∃ s₁ s₂, Move w.store s₁ ∧ Move s₁ s₂ ∧ authStep cfg w act = { w with store := s₂ })
      ∨ (∃ s' l u, Kept w.store s' ∧ w.store.users.get l.record.userId = some u
          ∧ l.verified = u.credential
          ∧ l.record.passwordChangeRequired = u.passwordChangeRequired
          ∧ authStep cfg w act = { w with store := s', logins := w.logins.insert l })
      ∨ ∃ id now db, act = .createSession id now db := by
  have hone : ∀ {s' : Store}, Move w.store s' →
      ∃ s₁ s₂, Move w.store s₁ ∧ Move s₁ s₂
        ∧ ({ w with store := s' } : World) = { w with store := s₂ } :=
    fun hm => ⟨_, _, hm, .kept (Kept.refl _), rfl⟩
  have hnone : ∃ s₁ s₂, Move w.store s₁ ∧ Move s₁ s₂ ∧ w = { w with store := s₂ } :=
    ⟨_, _, .kept (Kept.refl _), .kept (Kept.refl _), rfl⟩
  have hcommit : ∀ {result : Except AuthError Store},
      (∀ s', result = .ok s' → ∃ s₁, Move w.store s₁ ∧ Move s₁ s') →
      ∃ s₁ s₂, Move w.store s₁ ∧ Move s₁ s₂ ∧ w.commit result = { w with store := s₂ } := by
    intro result hresult
    cases result with
    | error e => exact hnone
    | ok s' =>
        obtain ⟨s₁, h₁, h₂⟩ := hresult s' rfl
        exact ⟨s₁, s', h₁, h₂, rfl⟩
  cases act with
  | register now tenantId email hash => exact Or.inl (hcommit fun s' h => register_moves h)
  | operatorCreate now email hash =>
      exact Or.inl (hcommit fun s' h => ⟨s', operatorCreate_move h, .kept (Kept.refl _)⟩)
  | operatorReset directory now email hash =>
      exact Or.inl (hcommit fun s' h => ⟨s', operatorReset_move h, .kept (Kept.refl _)⟩)
  | authenticate directory now salt account password tenantSlug =>
      unfold authStep
      dsimp only
      obtain ⟨verdict, s', hauth⟩ : ∃ verdict s', authenticate cfg.hasher cfg.settings
          directory now salt account password tenantSlug w.store = (verdict, s') :=
        ⟨_, _, rfl⟩
      rw [hauth]
      obtain ⟨hkept, hadmitted⟩ := authenticate_kept hauth
      dsimp only
      split
      · next record id u hfind =>
          obtain ⟨hid, hreq⟩ := hadmitted record id u rfl hfind
          refine Or.inr (Or.inl ⟨s', _, u, hkept, ?_, rfl, hreq, rfl⟩)
          show w.store.users.get record.userId = some u
          rw [hid]
          exact (Table.find_some hfind).1
      · exact Or.inl (hone (.kept hkept))
  | createSession id now db => exact Or.inr (Or.inr ⟨id, now, db, rfl⟩)
  | changePassword now salt userId tenantId sessionId current new =>
      exact Or.inl (hcommit fun s' h => changePassword_moves h)
  | revokeSession now sessionId =>
      exact Or.inl (hone (.kept ((Closing.revoke _ now).modify _ _)))
  | revokeUserSession now tenantId userId sessionId =>
      exact Or.inl (hone (.kept ((Closing.revoke _ now).modify _ _)))
  | currentAuth now sessionId admits =>
      refine Or.inl (hone (.kept (Closing.modify ?_ _ _)))
      have hexp := expireStale_closing cfg.settings now
      constructor
      · intro r
        split
        · split <;> rfl
        · exact hexp.userId r
      · intro r
        split
        · split <;> rfl
        · exact hexp.verified r
      · intro r hr
        split at hr
        · next h => exact h.1
        · exact hexp.active r hr
  | listUserSessions now tenantId userId =>
      refine Or.inl (hone (.kept (Closing.update ?_ _)))
      have hexp := expireStale_closing cfg.settings now
      constructor
      · intro r
        split
        · exact hexp.userId r
        · rfl
      · intro r
        split
        · exact hexp.verified r
        · rfl
      · intro r hr
        split at hr
        · exact hexp.active r hr
        · exact hr

-- ========================================================= a login's end

section
variable {l : Login}

theorem Opened.user (h : Opened s s' now l row) {j : Nat} (hu : s'.users.get j = some u') :
    ∃ u, s.users.get j = some u ∧ u'.credential = u.credential
      ∧ u'.passwordChangeRequired = u.passwordChangeRequired
      ∧ (u'.credentialUsedAt = none → u.credentialUsedAt = none
        ∧ (l.record.passwordChangeRequired = true → j ≠ l.record.userId)) := by
  rw [h.users] at hu
  by_cases hone : l.record.passwordChangeRequired = true
  · rw [if_pos hone] at hu
    rcases Table.get_modify_cases hu with ⟨rfl, y, hy, rfl⟩ | ⟨hne, hu⟩
    · exact ⟨y, hy, rfl, rfl, fun hused => by cases hused⟩
    · exact ⟨u', hu, rfl, rfl, fun hused => ⟨hused, fun _ => hne⟩⟩
  · rw [if_neg hone] at hu
    exact ⟨u', hu, rfl, rfl, fun hused => ⟨hused, fun h => absurd h hone⟩⟩

theorem Opened.present (h : Opened s s' now l row) {j : Nat} (hu : s.users.get j = some u) :
    ∃ u', s'.users.get j = some u' ∧ u'.credential = u.credential := by
  have hget : ∃ u', s'.users.get j = some u' := by
    rw [h.users]
    by_cases hone : l.record.passwordChangeRequired = true
    · rw [if_pos hone]
      exact Table.get_modify_of_some hu _ _
    · rw [if_neg hone]
      exact ⟨u, hu⟩
  obtain ⟨u', hu'⟩ := hget
  obtain ⟨y, hy, hc, -⟩ := h.user hu'
  obtain rfl := Option.some.inj (hu.symm.trans hy)
  exact ⟨u', hu', hc⟩

theorem Opened.owners (h : Opened s s' now l row) :
    s'.owners = s.owners ++ [(l.record.userId, l.verified)] := by
  unfold Store.owners
  rw [h.sessions, Table.rows_insert, List.map_append, List.map_singleton, h.userId,
    h.verified]

theorem Opened.inv (h : Opened s s' now l row) (hinv : StoreInv s) (hl : l.Genuine s) :
    StoreInv s' := by
  constructor
  · intro j u' hu'
    obtain ⟨u, hu, hc, hr, -⟩ := h.user hu'
    rw [h.credentials, hc, hr]
    exact hinv.owned j u hu
  · intro p hp
    rw [h.owners, List.mem_append, List.mem_singleton] at hp
    rw [h.credentials]
    have hpresent : ∀ {j}, (∃ u, s.users.get j = some u) → ∃ u', s'.users.get j = some u' := by
      rintro j ⟨u, hu⟩
      obtain ⟨u', hu', -⟩ := h.present hu
      exact ⟨u', hu'⟩
    rcases hp with hp | rfl
    · exact ⟨hpresent (hinv.opened p hp).1, (hinv.opened p hp).2⟩
    · exact ⟨hpresent hl.1, Table.lt_nextId hl.2⟩

theorem Opened.genuine (h : Opened s s' now l row) {m : Login} (hm : m.Genuine s) :
    m.Genuine s' := by
  obtain ⟨⟨u, hu⟩, hc⟩ := hm
  obtain ⟨u', hu', -⟩ := h.present hu
  exact ⟨⟨u', hu'⟩, by rw [h.credentials]; exact hc⟩

/-- The session is of the password in force, or the law is broken. -/
theorem Opened.unspent_iff (h : Opened s s' now l row) (hf : Fresh s)
    (hu : s.users.get l.record.userId = some u) :
    Fresh s' ↔ u.credential = l.verified := by
  obtain ⟨u', hu', hc'⟩ := h.present hu
  constructor
  · intro hfresh
    have hnew : s'.sessions.get s.sessions.nextId = some row := by
      rw [h.sessions]
      exact Table.get_insert_self _ _
    obtain ⟨v, hv, hcred⟩ := hfresh _ row hnew h.active
    rw [h.userId] at hv
    obtain rfl := Option.some.inj (hu'.symm.trans hv)
    rw [← hc', hcred, h.verified]
  · intro heq i r hr hst
    rw [h.sessions] at hr
    rcases Table.get_insert_cases hr with ⟨-, rfl⟩ | hr
    · rw [h.userId, h.verified]
      exact ⟨u', hu', hc'.trans heq⟩
    · obtain ⟨v, hv, hcred⟩ := hf i r hr hst
      obtain ⟨v', hv', hc⟩ := h.present hv
      exact ⟨v', hv', hc.trans hcred⟩

/-- A login with a lasting password touches no one-time credential; one with a
one-time credential uses up its own. -/
theorem Opened.single (h : Opened s s' now l row) (hinv : StoreInv s) (hl : l.Genuine s)
    (hs : Single s) (hu : s.users.get l.record.userId = some u)
    (hown : l.record.passwordChangeRequired = true → u.credential = l.verified) :
    Single s' := by
  by_cases hone : l.record.passwordChangeRequired = true
  · obtain ⟨v, hv, -, hcons⟩ := h.consumed hone
    obtain rfl := Option.some.inj (hu.symm.trans hv)
    simp only [User.consumable, Bool.and_eq_true, Option.isNone_iff_eq_none] at hcons
    obtain ⟨⟨hreq, -⟩, hused⟩ := hcons
    have hunspent := hs.unspent _ u hu hreq hused
    rw [hown hone] at hunspent
    refine ⟨fun c cr hc hone' => ?_, fun j u' hu' hreq' hused' hmem => ?_⟩
    · rw [h.owners, List.map_append, List.count_append]
      rw [h.credentials] at hc
      by_cases hcv : c = l.verified
      · rw [hcv, List.count_eq_zero_of_not_mem hunspent]
        simp
      · have hzero : ([(l.record.userId, l.verified)].map (·.2)).count c = 0 :=
          List.count_eq_zero_of_not_mem (by simpa using hcv)
        rw [hzero, Nat.add_zero]
        exact hs.once c cr hc hone'
    · obtain ⟨x, hx, hc, hr, huse⟩ := h.user hu'
      obtain ⟨hxused, hne⟩ := huse hused'
      rw [h.owners, List.map_append, List.mem_append, hc] at hmem
      rcases hmem with hmem | hmem
      · exact hs.unspent j x hx (hr ▸ hreq') hxused hmem
      · -- the credential of another user
        have heq : x.credential = l.verified := by simpa using hmem
        have howned := hinv.owned j x hx
        rw [heq, hl.2] at howned
        exact hne hone (congrArg Credential.userId (Option.some.inj howned)).symm
  · have hlasting : l.record.passwordChangeRequired = false := by simpa using hone
    have hcred := hl.2
    rw [hlasting] at hcred
    refine ⟨fun c cr hc hone' => ?_, fun j u' hu' hreq' hused' hmem => ?_⟩
    · rw [h.credentials] at hc
      have hcv : c ≠ l.verified := by
        rintro rfl
        obtain rfl := Option.some.inj (hcred.symm.trans hc)
        cases hone'
      have hzero : ([(l.record.userId, l.verified)].map (·.2)).count c = 0 :=
        List.count_eq_zero_of_not_mem (by simpa using hcv)
      rw [h.owners, List.map_append, List.count_append, hzero, Nat.add_zero]
      exact hs.once c cr hc hone'
    · obtain ⟨x, hx, hc, hr, huse⟩ := h.user hu'
      rw [h.owners, List.map_append, List.mem_append, hc] at hmem
      rcases hmem with hmem | hmem
      · exact hs.unspent j x hx (hr ▸ hreq') (huse hused').1 hmem
      · have heq : x.credential = l.verified := by simpa using hmem
        have howned := hinv.owned j x hx
        rw [heq, hcred, ← hr, hreq'] at howned
        cases howned

end

-- ================================================================== laws

/-- The second transaction of a login that would open its session. -/
def World.opens (w : World) (i now : Nat) (db : DbOutcome) (l : Login) (u : User) : Prop :=
  (w.logins.get i).filter (fun l => l.waiting) = some l ∧ db ≠ .rolledBack
    ∧ w.store.users.get l.record.userId = some u
    ∧ (l.record.passwordChangeRequired = true →
      u.status = .active ∧ u.consumable now = true)

/-- No password was changed since the login verified it. -/
def Timely (w : World) : Act → Prop
  | .createSession i now db => ∀ l u, w.opens i now db l u → u.credential = l.verified
  | _ => True

/-- The same, for the logins with a one-time credential. -/
def TimelyUse (w : World) : Act → Prop
  | .createSession i now db => ∀ l u, w.opens i now db l u →
      l.record.passwordChangeRequired = true → u.credential = l.verified
  | _ => True

/-- A one-time credential has opened one session at most, and was marked used
by logins that verified it. -/
structure Spent (w : World) : Prop where
  once : ∀ c cr, w.store.credentials.get c = some cr → cr.oneTime = true →
    (w.store.sessions.rows.filter fun r => r.verified == c).length ≤ 1
  holder : ∀ use ∈ w.uses, use.1 = use.2

theorem Login.Genuine.congr {l l' : Login} (h : l.Genuine s) (hrecord : l'.record = l.record)
    (hverified : l'.verified = l.verified) : l'.Genuine s := by
  unfold Login.Genuine at h ⊢
  rw [hrecord, hverified]
  exact h

/-- Whether a login opens its session, and what its end does. -/
theorem WorldInv.finish (h : WorldInv w) (cfg : Config) (i now : Nat) (db : DbOutcome) :
    WorldInv (w.finish cfg i now db)
      ∧ (((∀ l u, ¬ w.opens i now db l u) ∧ (w.finish cfg i now db).store = w.store
            ∧ (w.finish cfg i now db).uses = w.uses)
        ∨ ∃ l u row, w.opens i now db l u ∧ l.Genuine w.store
          ∧ Opened w.store (w.finish cfg i now db).store now l row
          ∧ (w.finish cfg i now db).uses
            = if l.record.passwordChangeRequired then
                w.uses ++ [(u.credential, l.verified)] else w.uses) := by
  unfold World.finish
  cases hl : (w.logins.get i).filter fun l => l.waiting with
  | none =>
      refine ⟨h, Or.inl ⟨fun l u hopens => ?_, rfl, rfl⟩⟩
      rw [World.opens, hl] at hopens
      cases hopens.1
  | some l =>
      have hget := (Option.filter_eq_some_iff.mp hl).1
      obtain ⟨⟨u, hu⟩, hcred⟩ := h.logins i l hget
      have hlogins : ∀ {s' : Store}, (∀ m : Login, m.Genuine w.store → m.Genuine s') →
          ∀ j m, (w.logins.modify i fun l => { l with waiting := false }).get j = some m →
          m.Genuine s' := by
        intro s' hkeep j m hm
        rcases Table.get_modify_cases hm with ⟨rfl, y, hy, rfl⟩ | ⟨-, hm⟩
        · exact (hkeep y (h.logins _ y hy)).congr rfl rfl
        · exact hkeep m (h.logins j m hm)
      have hidle : WorldInv { w with
          logins := w.logins.modify i fun l => { l with waiting := false } } :=
        ⟨h.store, hlogins fun _ hm => hm⟩
      dsimp only
      cases hcreate : createSession cfg.settings now l.record l.verified w.store with
      | error e =>
          refine ⟨hidle, Or.inl ⟨fun m v hopens => ?_, rfl, rfl⟩⟩
          obtain ⟨hm, -, hv, hfree⟩ := hopens
          obtain rfl := Option.some.inj (hl.symm.trans hm)
          obtain ⟨s', hs'⟩ := createSession_isOk cfg.settings hv hfree
          rw [hcreate] at hs'
          cases hs'
      | ok s' =>
          dsimp only
          by_cases hdb : db = .rolledBack
          · rw [if_pos hdb]
            exact ⟨hidle, Or.inl ⟨fun m v hopens => hopens.2.1 hdb, rfl, rfl⟩⟩
          · rw [if_neg hdb]
            obtain ⟨row, hopened⟩ := createSession_opened hcreate
            refine ⟨⟨hopened.inv h.store ⟨⟨u, hu⟩, hcred⟩,
              hlogins fun m hm => hopened.genuine hm⟩, Or.inr ?_⟩
            refine ⟨l, u, row, ⟨hl, hdb, hu, fun hone => ?_⟩, ⟨⟨u, hu⟩, hcred⟩, hopened, ?_⟩
            · obtain ⟨v, hv, hactive, hcons⟩ := hopened.consumed hone
              obtain rfl := Option.some.inj (hu.symm.trans hv)
              exact ⟨hactive, hcons⟩
            · rw [hu]

theorem WorldInv.step (h : WorldInv w) (cfg : Config) (act : Act) :
    WorldInv (authStep cfg w act) := by
  obtain ⟨s₁, s₂, h₁, h₂, heq⟩ | ⟨s', l, u, hk, hu, hver, hreq, heq⟩ | ⟨i, now, db, rfl⟩ :=
    authStep_cases cfg w act
  · rw [heq]
    exact (h.move h₁).move h₂
  · rw [heq]
    have hmoved := h.move (.kept hk)
    refine ⟨hmoved.store, fun j m hm => ?_⟩
    rcases Table.get_insert_cases hm with ⟨-, rfl⟩ | hm
    · refine Login.Genuine.move ⟨⟨u, hu⟩, ?_⟩ (.kept hk)
      rw [hver, hreq]
      exact h.store.owned _ u hu
    · exact hmoved.logins j m hm
  · exact (h.finish cfg i now db).1

/-- Acts other than the end of a login keep both laws. -/
theorem Move.both (h : Move s s') (hinv : StoreInv s) :
    (Fresh s → Fresh s') ∧ (Single s → Single s') :=
  ⟨h.fresh, h.single hinv⟩

theorem WorldInv.kept (h : WorldInv w) (cfg : Config) {act : Act}
    (hact : ∀ i now db, act ≠ .createSession i now db) :
    (Fresh w.store → Fresh (authStep cfg w act).store)
      ∧ (Single w.store → Single (authStep cfg w act).store)
      ∧ (authStep cfg w act).uses = w.uses := by
  obtain ⟨s₁, s₂, h₁, h₂, heq⟩ | ⟨s', l, u, hk, -, -, -, heq⟩ | ⟨i, now, db, rfl⟩ :=
    authStep_cases cfg w act
  · have hfirst := h₁.both h.store
    have hsecond := h₂.both (h₁.inv h.store)
    rw [heq]
    exact ⟨fun hf => hsecond.1 (hfirst.1 hf), fun hs => hsecond.2 (hfirst.2 hs), rfl⟩
  · have hmove := (Move.kept hk).both h.store
    rw [heq]
    exact ⟨hmove.1, hmove.2, rfl⟩
  · exact absurd rfl (hact i now db)

theorem Opening.inv (h : Opening w) : WorldInv w := by
  refine ⟨⟨h.credentials, ?_⟩, ?_⟩
  · intro p hp
    simp [Store.owners, h.sessions, Table.empty] at hp
  · intro i l hl
    rw [h.logins, Table.get_empty] at hl
    cases hl

structure FreshInv (w : World) : Prop where
  world : WorldInv w
  fresh : Fresh w.store

structure SpentInv (w : World) : Prop where
  world : WorldInv w
  single : Single w.store
  holder : ∀ use ∈ w.uses, use.1 = use.2

theorem FreshInv.step (h : FreshInv w) (cfg : Config) {act : Act} (hgood : Timely w act) :
    FreshInv (authStep cfg w act) := by
  obtain ⟨hinv, hf⟩ := h
  refine ⟨hinv.step cfg act, ?_⟩
  by_cases hact : ∀ i now db, act ≠ .createSession i now db
  · exact (hinv.kept cfg hact).1 hf
  · push Not at hact
    obtain ⟨i, now, db, rfl⟩ := hact
    rcases (hinv.finish cfg i now db).2 with ⟨-, hstore, -⟩ |
      ⟨l, u, row, hopens, -, hopened, -⟩
    · show Fresh (w.finish cfg i now db).store
      rw [hstore]
      exact hf
    · exact (hopened.unspent_iff hf hopens.2.2.1).mpr (hgood l u hopens)

/-- A session opened with a password that is no longer in force breaks the law
at once. -/
theorem FreshInv.broken (h : FreshInv w) (cfg : Config) {act : Act} (hbad : ¬ Timely w act) :
    ¬ Fresh (authStep cfg w act).store := by
  intro hfresh
  obtain ⟨hinv, hf⟩ := h
  cases act with
  | createSession i now db =>
      unfold Timely at hbad
      push Not at hbad
      obtain ⟨l, u, hopens, hne⟩ := hbad
      rcases (hinv.finish cfg i now db).2 with ⟨hno, -⟩ | ⟨m, v, row, hm, -, hopened, -⟩
      · exact hno l u hopens
      · obtain rfl := Option.some.inj (hopens.1.symm.trans hm.1)
        obtain rfl := Option.some.inj (hopens.2.2.1.symm.trans hm.2.2.1)
        exact hne ((hopened.unspent_iff hf hm.2.2.1).mp hfresh)
  | _ => exact hbad trivial

/-- In every run, at every moment, each active session is of the password its
user has then, exactly when no login opens its session with a password that
was changed after the login verified it. -/
theorem fresh_iff (cfg : Config) (h : Opening w) (acts : List Act) :
    (∀ sofar, sofar <+: acts → Fresh (run (authStep cfg) w sofar).store)
      ↔ RunAll (authStep cfg) Timely w acts := by
  have hopen : FreshInv w := by
    refine ⟨h.inv, fun i row hrow => ?_⟩
    rw [h.sessions, Table.get_empty] at hrow
    cases hrow
  exact prefix_run_iff (P := fun w : World => Fresh w.store) (fun w hw => hw.fresh)
    (fun w act hw hgood => hw.step cfg hgood) (fun w act hw hbad => hw.broken cfg hbad)
    hopen acts

theorem Single.spent (h : Single w.store) (huses : ∀ use ∈ w.uses, use.1 = use.2) :
    Spent w := by
  refine ⟨fun c cr hc hone => ?_, huses⟩
  have hcount := h.once c cr hc hone
  have hlen : (w.store.sessions.rows.filter fun r => r.verified == c).length
      = (w.store.owners.map (·.2)).count c := by
    unfold Store.owners
    rw [List.map_map, List.count_eq_countP, List.countP_map, List.countP_eq_length_filter]
    rfl
  rw [hlen]
  exact hcount

theorem SpentInv.step (h : SpentInv w) (cfg : Config) {act : Act} (hgood : TimelyUse w act) :
    SpentInv (authStep cfg w act) := by
  obtain ⟨hinv, hs, huses⟩ := h
  suffices hlaw : Single (authStep cfg w act).store
      ∧ ∀ use ∈ (authStep cfg w act).uses, use.1 = use.2 from
    ⟨hinv.step cfg act, hlaw.1, hlaw.2⟩
  by_cases hact : ∀ i now db, act ≠ .createSession i now db
  · obtain ⟨-, hsingle, heq⟩ := hinv.kept cfg hact
    rw [heq]
    exact ⟨hsingle hs, huses⟩
  · push Not at hact
    obtain ⟨i, now, db, rfl⟩ := hact
    show Single (w.finish cfg i now db).store ∧ ∀ use ∈ (w.finish cfg i now db).uses, _
    rcases (hinv.finish cfg i now db).2 with ⟨-, hstore, heq⟩ |
      ⟨l, u, row, hopens, hgen, hopened, heq⟩
    · rw [hstore, heq]
      exact ⟨hs, huses⟩
    · refine ⟨hopened.single hinv.store hgen hs hopens.2.2.1 (hgood l u hopens), ?_⟩
      rw [heq]
      by_cases hone : l.record.passwordChangeRequired = true
      · rw [if_pos hone]
        intro use huse
        rcases List.mem_append.mp huse with huse | huse
        · exact huses use huse
        · obtain rfl := List.mem_singleton.mp huse
          exact hgood l u hopens hone
      · rw [if_neg hone]
        exact huses

theorem SpentInv.broken (h : SpentInv w) (cfg : Config) {act : Act}
    (hbad : ¬ TimelyUse w act) : ¬ Spent (authStep cfg w act) := by
  intro hspent
  obtain ⟨hinv, -, -⟩ := h
  cases act with
  | createSession i now db =>
      unfold TimelyUse at hbad
      push Not at hbad
      obtain ⟨l, u, hopens, hone, hne⟩ := hbad
      rcases (hinv.finish cfg i now db).2 with ⟨hno, -⟩ |
        ⟨m, v, row, hm, -, -, heq⟩
      · exact hno l u hopens
      · obtain rfl := Option.some.inj (hopens.1.symm.trans hm.1)
        obtain rfl := Option.some.inj (hopens.2.2.1.symm.trans hm.2.2.1)
        have hholder := hspent.holder (u.credential, l.verified) (by
          show _ ∈ (w.finish cfg i now db).uses
          rw [heq, if_pos hone]
          exact List.mem_append_right _ List.mem_cons_self)
        exact hne hholder
  | _ => exact hbad trivial

/-- In every run, at every moment, each one-time credential has opened one
session at most and been marked used only by a login that verified it,
exactly when no login with a one-time credential uses up another one, issued
after it verified its own. -/
theorem spent_iff (cfg : Config) (h : Opening w) (acts : List Act) :
    (∀ sofar, sofar <+: acts → Spent (run (authStep cfg) w sofar))
      ↔ RunAll (authStep cfg) TimelyUse w acts := by
  have hopen : SpentInv w := by
    refine ⟨h.inv, ⟨?_, ?_⟩, ?_⟩
    · intro c cr _ _
      simp [Store.owners, h.sessions, Table.empty]
    · intro id u _ _ _ hmem
      simp [Store.owners, h.sessions, Table.empty] at hmem
    · rw [h.uses]
      simp
  exact prefix_run_iff (P := Spent) (fun w hw => hw.single.spent hw.holder)
    (fun w act hw hgood => hw.step cfg hgood) (fun w act hw hbad => hw.broken cfg hbad)
    hopen acts

-- =============================================================== samples

/-- Passwords in the clear, in place of Argon2. -/
def sampleAuth : Config :=
  { hasher := { verifyOrDummy := fun h p => h == some p, needsRehash := fun _ => false
                hash := fun _ p => p }
    settings := { maxFailedLoginAttempts := 5, lockout := 900000000, sessionTtl := 3600000000
                  sessionIdleTtl := 1800000000, sessionTouchInterval := 60000000 } }

/-- The first transaction of a login. -/
def sampleLogin (now : Nat) (password : String) : Act :=
  .authenticate (fun _ => [(1, "acme")]) now 0 "ann@acme.io" password none

/-- The operator's reset of the same account. -/
def sampleReset (now : Nat) (password : String) : Act :=
  .operatorReset (fun _ => [(1, "acme")]) now "ann@acme.io" password

theorem timely_of_check {i : Nat} {db : DbOutcome}
    (h : ((w.logins.get i).filter fun l => l.waiting).all (fun l =>
      (w.store.users.get l.record.userId).all fun u => u.credential == l.verified) = true) :
    Timely w (.createSession i now db) ∧ TimelyUse w (.createSession i now db) := by
  have hall : ∀ l u, w.opens i now db l u → u.credential = l.verified := by
    rintro l u ⟨hl, -, hu, -⟩
    rw [hl] at h
    simpa [hu] using h
  exact ⟨hall, fun l u hopens _ => hall l u hopens⟩

/-- A login that is through before the password changes. -/
theorem fresh_iff_sample :
    Fresh (run (authStep sampleAuth) World.initial
      [.register 1 1 "ann@acme.io" "first password", sampleLogin 2 "first password",
        .createSession 0 3 .committed,
        .changePassword 4 0 0 1 0 "first password" "second password"]).store := by
  refine (fresh_iff sampleAuth initial_opening _).mpr ?_ _ (List.prefix_refl _)
  exact ⟨trivial, trivial, (timely_of_check (by decide +kernel)).1, trivial, trivial⟩

/-- The same login, through only after the change: an active session of the
first password under the second. -/
theorem stale_session :
    ¬ Fresh (run (authStep sampleAuth) World.initial
      [.register 1 1 "ann@acme.io" "first password", sampleLogin 2 "first password",
        .changePassword 3 0 0 1 0 "first password" "second password",
        .createSession 0 4 .committed]).store := by
  generalize hw : (run (authStep sampleAuth) World.initial
      [.register 1 1 "ann@acme.io" "first password", sampleLogin 2 "first password",
        .changePassword 3 0 0 1 0 "first password" "second password",
        .createSession 0 4 .committed]).store = s
  have hsession : (s.sessions.get 2).map (fun r => (r.userId, r.status, r.verified))
      = some (0, .active, 0) := by
    rw [← hw]
    decide +kernel
  have huser : (s.users.get 0).map (·.credential) = some 1 := by
    rw [← hw]
    decide +kernel
  obtain ⟨row, hrow, hfields⟩ := Option.map_eq_some_iff.mp hsession
  obtain ⟨hid, hst, hver⟩ : row.userId = 0 ∧ row.status = .active ∧ row.verified = 0 := by
    simpa using hfields
  intro hfresh
  obtain ⟨u, hu, hcred⟩ := hfresh 2 row hrow hst
  rw [hid] at hu
  rw [hu, Option.map_some, hcred, hver] at huser
  cases huser

/-- Two logins with one credential: the second is refused. -/
theorem spent_iff_sample :
    Spent (run (authStep sampleAuth) World.initial
      [.operatorCreate 1 "ann@acme.io" "one", sampleLogin 2 "one", sampleLogin 3 "one",
        .createSession 0 4 .committed, .createSession 1 5 .committed,
        sampleReset 6 "two"]) := by
  refine (spent_iff sampleAuth initial_opening _).mpr ?_ _ (List.prefix_refl _)
  exact ⟨trivial, trivial, trivial, (timely_of_check (by decide +kernel)).2,
    (timely_of_check (by decide +kernel)).2, trivial, trivial⟩

/-- With the reset before the second login is through, the first credential
opens a second session, and uses up the second credential for it. -/
theorem spent_twice :
    let w := run (authStep sampleAuth) World.initial
      [.operatorCreate 1 "ann@acme.io" "one", sampleLogin 2 "one", sampleLogin 3 "one",
        .createSession 0 4 .committed, sampleReset 5 "two", .createSession 1 6 .committed]
    w.store.credentials.get 0 = some ⟨0, true⟩
      ∧ (w.store.sessions.rows.filter fun r => r.verified == 0).length = 2
      ∧ w.uses = [(0, 0), (1, 0)] := by
  decide +kernel

end Mosaic.Auth
