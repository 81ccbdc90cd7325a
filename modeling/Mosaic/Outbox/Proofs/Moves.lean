/-
What one call of the outbox repository can do to a row.

`RowMove` lists it: a row is kept, leased under a token nobody has drawn,
failed for want of attempts, or marked under its own lease. Every
invariant of the relay is a case analysis over it.
-/
import Mosaic.Outbox.Relay

namespace Mosaic.Outbox

open Lib

variable {s s' : Store} {row row' : OutboxRow} {id now maxAttempts : Nat}
  {may : Nat → Prop}

/-- The columns no call writes. -/
structure SameEvent (row row' : OutboxRow) : Prop where
  tenantId : row'.tenantId = row.tenantId
  aggregateType : row'.aggregateType = row.aggregateType
  aggregateId : row'.aggregateId = row.aggregateId
  eventType : row'.eventType = row.eventType
  aggregateVersion : row'.aggregateVersion = row.aggregateVersion
  payload : row'.payload = row.payload

/-- What happened to a row in a call made at `now` that may publish the
rows of `may`. -/
inductive RowMove (now maxAttempts : Nat) (may : Nat → Prop) (s s' : Store) (id : Nat)
    (row row' : OutboxRow) : Prop
  | kept (h : row' = row)
  | leased (owner : String) (token leaseUntil : Nat)
      (hpending : row.status = .pending) (hattempts : row.attempts < maxAttempts)
      (hfree : row.leaseExpiresAt.all (· ≤ now) = true)
      (hfresh : s.nextUuid ≤ token) (hdrawn : token < s'.nextUuid)
      (h : row' = leaseRow owner token leaseUntil (row.attempts + 1) row)
  | exhausted (hpending : row.status = .pending) (hfailed : row'.status = .failed)
      (hattempts : row'.attempts = row.attempts) (htoken : row'.leaseToken = none)
      (hsame : SameEvent row row')
  | marked (f : Fence) (hid : f.eventId = id) (hfence : f.admits row = true)
      (hstatus : row'.status = .published → may id)
      (hattempts : row'.attempts = row.attempts) (htoken : row'.leaseToken = none)
      (hsame : SameEvent row row')

theorem Fence.admits_pending {f : Fence} (h : f.admits row = true) :
    row.status = .pending := by
  simp only [Fence.admits, Bool.and_eq_true, beq_iff_eq] at h
  exact h.1.1.2

theorem Fence.admits_token {f : Fence} (h : f.admits row = true) :
    row.leaseToken = some f.leaseToken := by
  simp only [Fence.admits, Bool.and_eq_true, beq_iff_eq] at h
  exact h.2

theorem RowMove.pending (h : RowMove now maxAttempts may s s' id row row') :
    row' = row ∨ row.status = .pending := by
  cases h with
  | kept h => exact Or.inl h
  | leased owner token leaseUntil hpending hattempts hfree hfresh hdrawn h =>
      exact Or.inr hpending
  | exhausted hpending hfailed hattempts htoken hsame => exact Or.inr hpending
  | marked f hid hfence hstatus hattempts htoken hsame => exact Or.inr (Fence.admits_pending hfence)

theorem RowMove.same (h : RowMove now maxAttempts may s s' id row row') : SameEvent row row' := by
  cases h with
  | kept h =>
      subst h
      exact ⟨rfl, rfl, rfl, rfl, rfl, rfl⟩
  | leased owner token leaseUntil hpending hattempts hfree hfresh hdrawn h =>
      subst h
      rw [leaseRow, if_pos hpending]
      exact ⟨rfl, rfl, rfl, rfl, rfl, rfl⟩
  | exhausted hpending hfailed hattempts htoken hsame => exact hsame
  | marked f hid hfence hstatus hattempts htoken hsame => exact hsame

theorem RowMove.published (h : RowMove now maxAttempts may s s' id row row')
    (hp : row'.status = .published) : row.status = .published ∨ may id := by
  cases h with
  | kept h =>
      rw [h] at hp
      exact Or.inl hp
  | leased owner token leaseUntil hpending hattempts hfree hfresh hdrawn h =>
      rw [h, leaseRow, if_pos hpending, hpending] at hp
      cases hp
  | exhausted hpending hfailed hattempts htoken hsame =>
      rw [hfailed] at hp
      cases hp
  | marked f hid hfence hstatus hattempts htoken hsame => exact Or.inr (hstatus hp)

/-- A call of the repository, as its rows see it. -/
structure RowsMove (now maxAttempts : Nat) (may : Nat → Prop) (s s' : Store) : Prop where
  uuid : s.nextUuid ≤ s'.nextUuid
  move : ∀ id row, s.rows.get id = some row →
    ∃ row', s'.rows.get id = some row' ∧ RowMove now maxAttempts may s s' id row row'
  old : ∀ id row', s'.rows.get id = some row' → ∃ row, s.rows.get id = some row

theorem RowsMove.refl (now maxAttempts : Nat) (may : Nat → Prop) (s : Store) :
    RowsMove now maxAttempts may s s :=
  ⟨le_rfl, fun _ row h => ⟨row, h, .kept rfl⟩, fun _ row h => ⟨row, h⟩⟩

-- ================================================================ claim

theorem validateOwner_ok {owner owner' : String} (h : validateOwner owner = .ok owner') :
    owner' = PyStr.strip owner := by
  simp only [validateOwner, bind_eq_ok, pure_eq_ok] at h
  obtain ⟨-, -, h⟩ := h
  exact h.symm

/-- The event a claim makes of a row. -/
def leasedEvent (id : Nat) (row : OutboxRow) (owner : String) (token leaseUntil : Nat) :
    OutboxEvent :=
  { eventId := id, tenantId := row.tenantId, aggregateType := row.aggregateType
    aggregateId := row.aggregateId, eventType := row.eventType
    aggregateVersion := row.aggregateVersion, payload := row.payload
    attempts := row.attempts + 1, availableAt := leaseUntil, claimOwner := some owner
    leaseToken := some token, leaseExpiresAt := some leaseUntil }

/-- The row and the event of one turn of the claim's loop. -/
structure Leased (owner : String) (leaseUntil : Nat) (s s' : Store) (e : Nat × OutboxRow)
    (token : Nat) : Prop where
  fresh : s.nextUuid ≤ token
  drawn : token < s'.nextUuid
  row : s'.rows.get e.1 = some (leaseRow owner token leaseUntil (e.2.attempts + 1) e.2)

theorem eventFromRow_ok {owner : String} {token leaseUntil : Nat} {event : OutboxEvent}
    (h : eventFromRow id row (row.attempts + 1) owner token leaseUntil = .ok event) :
    event = leasedEvent id row owner token leaseUntil := by
  simp only [eventFromRow, bind_eq_ok, pure_eq_ok] at h
  obtain ⟨-, -, h⟩ := h
  exact h.symm

/-- The loop of a claim leases the rows it was given, and no other. -/
theorem claimRows_ok {owner : String} {leaseUntil : Nat} {es : List (Nat × OutboxRow)}
    {events : List OutboxEvent} (h : claimRows owner leaseUntil es s = .ok (events, s'))
    (hnodup : (es.map (·.1)).Nodup)
    (hrows : ∀ e ∈ es, s.rows.get e.1 = some e.2) :
    s.nextUuid ≤ s'.nextUuid
      ∧ (∀ id, id ∉ es.map (·.1) → s'.rows.get id = s.rows.get id)
      ∧ (∀ e ∈ es, ∃ token, Leased owner leaseUntil s s' e token)
      ∧ ∀ event ∈ events, ∃ e ∈ es, ∃ token, Leased owner leaseUntil s s' e token
        ∧ event = leasedEvent e.1 e.2 owner token leaseUntil := by
  induction es generalizing s events with
  | nil =>
      simp only [claimRows, Except.ok.injEq, Prod.mk.injEq] at h
      obtain ⟨rfl, rfl⟩ := h
      exact ⟨le_rfl, fun _ _ => rfl, fun e he => by (cases he), fun e he => by cases he⟩
  | cons e es ih =>
      obtain ⟨k, row⟩ := e
      simp only [claimRows, bind_eq_ok, pure_eq_ok] at h
      obtain ⟨event, hevent, ⟨rest, t⟩, hrest, h⟩ := h
      obtain ⟨rfl, rfl⟩ := Prod.mk.inj h
      rw [List.map_cons, List.nodup_cons] at hnodup
      obtain ⟨hk, hnodup⟩ := hnodup
      have hother : ∀ {id}, id ≠ k → (s.rows.modify k (leaseRow owner s.nextUuid leaseUntil
          (row.attempts + 1))).get id = s.rows.get id :=
        fun hid => Table.get_modify_ne _ hid.symm _
      obtain ⟨huuid, hkeep, hleased, hevents⟩ := ih hrest hnodup fun e he => by
        have hne : e.1 ≠ k := by
          intro heq
          exact hk (List.mem_map.mpr ⟨e, he, heq⟩)
        exact (hother hne).trans (hrows e (List.mem_cons_of_mem _ he))
      simp only at huuid
      have hself : Leased owner leaseUntil s t (k, row) s.nextUuid := by
        refine ⟨le_rfl, huuid, ?_⟩
        rw [hkeep k hk, Table.get_modify_self, hrows (k, row) List.mem_cons_self]
        rfl
      have hweak : ∀ {e token}, Leased owner leaseUntil
          ⟨s.rows.modify k (leaseRow owner s.nextUuid leaseUntil (row.attempts + 1)),
            s.nextUuid + 1⟩ t e token → Leased owner leaseUntil s t e token :=
        fun hl => ⟨(Nat.le_succ _).trans hl.fresh, hl.drawn, hl.row⟩
      refine ⟨(Nat.le_succ _).trans huuid, fun id hid => ?_, fun e he => ?_,
        fun ev hev => ?_⟩
      · rw [List.map_cons, List.mem_cons, not_or] at hid
        rw [hkeep id hid.2]
        exact hother hid.1
      · rcases List.mem_cons.mp he with rfl | he
        · exact ⟨s.nextUuid, hself⟩
        · obtain ⟨token, hl⟩ := hleased e he
          exact ⟨token, hweak hl⟩
      · rcases List.mem_cons.mp hev with rfl | hev
        · exact ⟨(k, row), List.mem_cons_self, s.nextUuid, hself, eventFromRow_ok hevent⟩
        · obtain ⟨e, he, token, hl, hval⟩ := hevents ev hev
          exact ⟨e, List.mem_cons_of_mem _ he, token, hweak hl, hval⟩

theorem failExhausted_cases (now maxAttempts : Nat) (f : ClaimFilter) (row : OutboxRow) :
    failExhausted now maxAttempts f row = row
      ∨ (maxAttempts ≤ row.attempts ∧ row.status = .pending
        ∧ (failExhausted now maxAttempts f row).status = .failed
        ∧ (failExhausted now maxAttempts f row).attempts = row.attempts
        ∧ (failExhausted now maxAttempts f row).leaseToken = none
        ∧ SameEvent row (failExhausted now maxAttempts f row)) := by
  unfold failExhausted
  split
  · next hc =>
      simp only [claimable, Bool.and_eq_true, beq_iff_eq] at hc
      exact Or.inr ⟨hc.2, hc.1.1.1.1, rfl, rfl, rfl, ⟨rfl, rfl, rfl, rfl, rfl, rfl⟩⟩
  · exact Or.inl rfl

/-- A claim made the event of a row and leased the row for it. -/
def Handed (owner : String) (s s' : Store) (event : OutboxEvent) : Prop :=
  ∃ row token leaseUntil, s.rows.get event.eventId = some row
    ∧ s.nextUuid ≤ token ∧ token < s'.nextUuid ∧ row.status = .pending
    ∧ event = leasedEvent event.eventId row owner token leaseUntil
    ∧ s'.rows.get event.eventId
      = some (leaseRow owner token leaseUntil (row.attempts + 1) row)

/-- What a claim does: to the rows, and what it hands out. -/
theorem claim_ok {locked : Nat → Bool} {owner : String}
    {eventTypes : Option (List String)} {limit leaseSeconds : Nat} {tenantId : Option Nat}
    {events : List OutboxEvent}
    (h : claim now locked owner eventTypes limit tenantId leaseSeconds maxAttempts s
      = .ok (events, s')) :
    (∀ may, RowsMove now maxAttempts may s s')
      ∧ ∀ event ∈ events, Handed (PyStr.strip owner) s s' event := by
  simp only [claim, bind_eq_ok] at h
  obtain ⟨owner', howner, -, -, -, -, -, -, selected, -, h⟩ := h
  obtain rfl := validateOwner_ok howner
  split at h
  · cases h
    exact ⟨fun may => RowsMove.refl now maxAttempts may s, fun e he => by cases he⟩
  · generalize hf : (⟨tenantId, selected⟩ : ClaimFilter) = f at h
    generalize hsel : claimSelection now limit maxAttempts f locked
      (s.rows.update (failExhausted now maxAttempts f)) = es at h
    -- a selected row is pending, free, has attempts left, and so was not failed
    have hmem : ∀ e ∈ es, s.rows.get e.1 = some e.2 ∧ e.2.status = .pending
        ∧ e.2.attempts < maxAttempts ∧ e.2.leaseExpiresAt.all (· ≤ now) = true
        ∧ (s.rows.update (failExhausted now maxAttempts f)).get e.1 = some e.2 := by
      intro e he
      rw [← hsel] at he
      obtain ⟨hget, hp⟩ := Table.mem_ordered.mp (List.mem_of_mem_take he)
      simp only [claimable, Bool.and_eq_true, beq_iff_eq, decide_eq_true_eq] at hp
      obtain ⟨⟨⟨⟨⟨hpending, -⟩, hfree⟩, -⟩, hattempts⟩, -⟩ := hp
      have hget' := hget
      rw [Table.get_update, Option.map_eq_some_iff] at hget'
      obtain ⟨row, hrow, hval⟩ := hget'
      rcases failExhausted_cases now maxAttempts f row with hsame | ⟨-, -, hfailed, -⟩
      · rw [hsame] at hval
        subst hval
        exact ⟨hrow, hpending, hattempts, hfree, hget⟩
      · rw [hval, hpending] at hfailed
        cases hfailed
    have hnodup : (es.map (·.1)).Nodup := by
      rw [← hsel]
      exact (Table.nodup_ordered _ _ _).sublist ((List.take_sublist _ _).map _)
    obtain ⟨huuid, hkeep, hleased, hevents⟩ :=
      claimRows_ok h hnodup fun e he => (hmem e he).2.2.2.2
    simp only at huuid
    refine ⟨fun may => ⟨huuid, fun id row hrow => ?_, fun id row' hrow' => ?_⟩,
      fun event hev => ?_⟩
    · by_cases hid : id ∈ es.map (·.1)
      · obtain ⟨e, he, rfl⟩ := List.mem_map.mp hid
        obtain ⟨hold, hpending, hattempts, hfree, -⟩ := hmem e he
        obtain rfl := Option.some.inj (hrow.symm.trans hold)
        obtain ⟨token, hl⟩ := hleased e he
        exact ⟨_, hl.row, .leased _ token _ hpending hattempts hfree hl.fresh hl.drawn rfl⟩
      · rw [hkeep id hid, Table.get_update, hrow]
        refine ⟨_, rfl, ?_⟩
        rcases failExhausted_cases now maxAttempts f row with
          hsame | ⟨-, hpending, hfailed, hatt, htoken, hev⟩
        · exact .kept hsame
        · exact .exhausted hpending hfailed hatt htoken hev
    · by_cases hid : id ∈ es.map (·.1)
      · obtain ⟨e, he, rfl⟩ := List.mem_map.mp hid
        exact ⟨e.2, (hmem e he).1⟩
      · rw [hkeep id hid, Table.get_update, Option.map_eq_some_iff] at hrow'
        obtain ⟨row, hrow, -⟩ := hrow'
        exact ⟨row, hrow⟩
    · obtain ⟨e, he, token, hl, rfl⟩ := hevents event hev
      obtain ⟨hold, hpending, -⟩ := hmem e he
      exact ⟨e.2, token, _, hold, hl.fresh, hl.drawn, hpending, rfl, hl.row⟩

-- ================================================================ marks

/-- An update under a fence hits the row of that lease, or nothing. -/
theorem fencedUpdate_cases (f : Fence) (change : OutboxRow → OutboxRow) (s : Store) :
    ((fencedUpdate f change s) = (false, s)
        ∧ ∀ row, s.rows.get f.eventId = some row → f.admits row = false)
      ∨ ∃ row, s.rows.get f.eventId = some row ∧ f.admits row = true
        ∧ fencedUpdate f change s = (true, { s with rows := s.rows.modify f.eventId change }) := by
  unfold fencedUpdate
  by_cases hhit : (s.rows.get f.eventId).any f.admits = true
  · rw [if_pos hhit]
    obtain ⟨row, hrow, ha⟩ := (Option.any_eq_true _ _).mp hhit
    exact Or.inr ⟨row, hrow, ha, rfl⟩
  · rw [if_neg hhit]
    refine Or.inl ⟨rfl, fun row hrow => ?_⟩
    simpa [hrow] using hhit

theorem fencedUpdate_moves (f : Fence) {change : OutboxRow → OutboxRow}
    {may : Nat → Prop} (hmay : ∀ row, (change row).status = .published → may f.eventId)
    (hchange : ∀ row, (change row).attempts = row.attempts ∧ (change row).leaseToken = none
      ∧ SameEvent row (change row)) (now maxAttempts : Nat) (s : Store) :
    RowsMove now maxAttempts may s (fencedUpdate f change s).2 := by
  rcases fencedUpdate_cases f change s with ⟨heq, -⟩ | ⟨row, hrow, ha, heq⟩
  · rw [heq]
    exact RowsMove.refl now maxAttempts may s
  · rw [heq]
    have hrep := Table.replaced_modify hrow change
    refine ⟨le_rfl, fun id x hx => ?_, fun id x' hx' => ?_⟩
    · by_cases hid : id = f.eventId
      · subst hid
        obtain rfl := Option.some.inj (hrow.symm.trans hx)
        obtain ⟨hatt, htoken, hsame⟩ := hchange row
        exact ⟨_, hrep.new, .marked f rfl ha (hmay row) hatt htoken hsame⟩
      · exact ⟨x, (hrep.other hid).trans hx, .kept rfl⟩
    · rcases hrep.cases hx' with ⟨rfl, -⟩ | ⟨-, hx⟩
      · exact ⟨row, hrow⟩
      · exact ⟨x', hx⟩

theorem publishedRow_same (now : Nat) (row : OutboxRow) :
    (publishedRow now row).attempts = row.attempts ∧ (publishedRow now row).leaseToken = none
      ∧ SameEvent row (publishedRow now row) :=
  ⟨rfl, rfl, ⟨rfl, rfl, rfl, rfl, rfl, rfl⟩⟩

theorem retriedRow_same (now retryAt maxAttempts : Nat) (details : OutboxErrorDetails)
    (row : OutboxRow) :
    (retriedRow now retryAt maxAttempts details row).attempts = row.attempts
      ∧ (retriedRow now retryAt maxAttempts details row).leaseToken = none
      ∧ SameEvent row (retriedRow now retryAt maxAttempts details row) :=
  ⟨rfl, rfl, ⟨rfl, rfl, rfl, rfl, rfl, rfl⟩⟩

theorem markPublished_ok {f : Fence} {hit : Bool}
    (h : markPublished now f s = .ok (hit, s')) :
    (hit, s') = fencedUpdate { f with owner := PyStr.strip f.owner } (publishedRow now) s := by
  simp only [markPublished, bind_eq_ok, pure_eq_ok] at h
  obtain ⟨owner, howner, h⟩ := h
  rw [← h, validateOwner_ok howner]

theorem markRetry_ok {f : Fence} {details : OutboxErrorDetails} {retryAt : Nat} {hit : Bool}
    (h : markRetry now f details retryAt maxAttempts s = .ok (hit, s')) :
    (hit, s') = fencedUpdate { f with owner := PyStr.strip f.owner }
      (retriedRow now retryAt maxAttempts details) s := by
  simp only [markRetry, bind_eq_ok, pure_eq_ok] at h
  obtain ⟨owner, howner, -, -, h⟩ := h
  rw [← h, validateOwner_ok howner]

end Mosaic.Outbox
