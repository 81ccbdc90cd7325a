/-
The invariant of the fenced relay, across any number of batches.

An event a batch holds knows its row: as long as the row still carries
the event's token, nobody has claimed it again, so its attempts are the
event's (`HeldEvent`). That is why the relay, which decides on a retry by
the event, and the repository, which decides by the row, agree.
-/
import Mosaic.Outbox.Proofs.Moves

namespace Mosaic.Outbox

open Lib

variable {s s' : Store} {w w' : World} {p p' : Batch} {env : Env} {row row' : OutboxRow}
  {id now maxAttempts : Nat} {may : Nat → Prop} {event : OutboxEvent}

-- ============================================================ invariant

/-- The event a batch is about to mark. -/
def BatchPc.event? : BatchPc → Option OutboxEvent
  | .markPublished event _ => some event
  | .markRetry event .. => some event
  | _ => none

/-- The event is in the hands of the batch. -/
def Batch.holds (p : Batch) (event : OutboxEvent) : Prop :=
  event ∈ p.events ∨ p.pc.event? = some event

/-- What an event in somebody's hands says about its row. -/
structure HeldEvent (s : Store) (event : OutboxEvent) (row : OutboxRow) (token : Nat) :
    Prop where
  known : s.rows.get event.eventId = some row
  leased : event.leaseToken = some token
  drawn : token < s.nextUuid
  attempts : row.leaseToken = some token → row.attempts = event.attempts
  tenantId : event.tenantId = row.tenantId
  aggregateType : event.aggregateType = row.aggregateType
  aggregateId : event.aggregateId = row.aggregateId
  eventType : event.eventType = row.eventType
  aggregateVersion : event.aggregateVersion = row.aggregateVersion

/-- The envelope is that of the row `id`. -/
structure EventEnvelope.IsOf (e : EventEnvelope) (id : Nat) (row : OutboxRow) : Prop where
  eventId : e.eventId = id
  tenantId : e.tenantId = row.tenantId
  aggregateType : e.aggregateType = row.aggregateType
  aggregateId : e.aggregateId = row.aggregateId
  eventType : e.eventType = row.eventType
  aggregateVersion : e.aggregateVersion = row.aggregateVersion

/-- The fence is the one of the event's own lease. -/
def OutboxEvent.Fences (event : OutboxEvent) (fence : Fence) : Prop :=
  ∃ lease, event.requireLease = .ok lease ∧ fence = event.fence lease

structure BatchInv (maxAttempts : Nat) (w : World) (p : Batch) : Prop where
  policy : p.relay.policy.maxAttempts = maxAttempts
  held : ∀ event, p.holds event → ∃ row token, HeldEvent w.store event row token
  /-- A batch about to publish has the broker's confirm. -/
  publishing : ∀ event fence, p.pc = .markPublished event fence → event.Fences fence
    ∧ ∃ envelope ∈ w.confirmed, envelopeOf event = .ok envelope
  retrying : ∀ event fence details retryAt,
    p.pc = .markRetry event fence details retryAt → event.Fences fence

structure RelayInv (maxAttempts : Nat) (w : World) : Prop where
  bounded : ∀ id row, w.store.rows.get id = some row → row.attempts ≤ maxAttempts
  tokens : ∀ id row t, w.store.rows.get id = some row → row.leaseToken = some t →
    t < w.store.nextUuid
  published : ∀ id row, w.store.rows.get id = some row → row.status = .published →
    ∃ envelope ∈ w.confirmed, envelope.IsOf id row
  batches : ∀ k p, w.batches.get k = some p → BatchInv maxAttempts w p

theorem WorldOpening.inv (h : WorldOpening w) : RelayInv maxAttempts w := by
  refine ⟨fun id row hrow => ?_, fun id row t hrow => ?_, fun id row hrow => ?_,
    fun k p hp => ?_⟩
  · simp [h.rows] at hrow
  · simp [h.rows] at hrow
  · simp [h.rows] at hrow
  · simp [h.batches] at hp

-- ================================================================= rows

theorem RowMove.attempts_le (h : RowMove now maxAttempts may s s' id row row')
    (hle : row.attempts ≤ maxAttempts) : row'.attempts ≤ maxAttempts := by
  cases h with
  | kept h =>
      rw [h]
      exact hle
  | leased owner token leaseUntil hpending hattempts hfree hfresh hdrawn h =>
      rw [h, leaseRow, if_pos hpending]
      exact hattempts
  | exhausted hpending hfailed hattempts htoken hsame => rw [hattempts]; exact hle
  | marked f hid hfence hstatus hattempts htoken hsame => rw [hattempts]; exact hle

theorem RowMove.token (h : RowMove now maxAttempts may s s' id row row') {t : Nat}
    (ht : row'.leaseToken = some t) :
    (row.leaseToken = some t ∧ row'.attempts = row.attempts)
      ∨ (s.nextUuid ≤ t ∧ t < s'.nextUuid) := by
  cases h with
  | kept h =>
      rw [h] at ht ⊢
      exact Or.inl ⟨ht, rfl⟩
  | leased owner token leaseUntil hpending hattempts hfree hfresh hdrawn h =>
      rw [h, leaseRow, if_pos hpending] at ht
      obtain rfl := Option.some.inj ht
      exact Or.inr ⟨hfresh, hdrawn⟩
  | exhausted hpending hfailed hattempts htoken hsame =>
      rw [htoken] at ht
      cases ht
  | marked f hid hfence hstatus hattempts htoken hsame =>
      rw [htoken] at ht
      cases ht

theorem EventEnvelope.IsOf.kept {e : EventEnvelope} (h : e.IsOf id row)
    (hsame : SameEvent row row') : e.IsOf id row' :=
  ⟨h.eventId, h.tenantId.trans hsame.tenantId.symm,
    h.aggregateType.trans hsame.aggregateType.symm, h.aggregateId.trans hsame.aggregateId.symm,
    h.eventType.trans hsame.eventType.symm,
    h.aggregateVersion.trans hsame.aggregateVersion.symm⟩

/-- A held event keeps knowing its row. -/
theorem HeldEvent.moved {token : Nat} (h : HeldEvent s event row token)
    (hmove : RowsMove now maxAttempts may s s') :
    ∃ row', HeldEvent s' event row' token := by
  obtain ⟨row', hrow', hrowmove⟩ := hmove.move _ row h.known
  have hsame := hrowmove.same
  refine ⟨row', hrow', h.leased, h.drawn.trans_le hmove.uuid, fun ht => ?_,
    h.tenantId.trans hsame.tenantId.symm, h.aggregateType.trans hsame.aggregateType.symm,
    h.aggregateId.trans hsame.aggregateId.symm, h.eventType.trans hsame.eventType.symm,
    h.aggregateVersion.trans hsame.aggregateVersion.symm⟩
  rcases hrowmove.token ht with ⟨hold, hatt⟩ | ⟨hfresh, -⟩
  · rw [hatt]
    exact h.attempts hold
  · have := h.drawn
    omega

/-- An event just handed out knows its row. -/
theorem Handed.held {owner : String} (h : Handed owner s s' event) :
    ∃ row token, HeldEvent s' event row token := by
  obtain ⟨row, token, leaseUntil, hrow, hfresh, hdrawn, hpending, hevent, hrow'⟩ := h
  refine ⟨_, token, hrow', ?_, hdrawn, ?_, ?_, ?_, ?_, ?_, ?_⟩ <;>
    (rw [hevent]; simp [leaseRow, hpending, leasedEvent])

-- ============================================================== batches

/-- What one step of a batch did. -/
structure BatchMove (env : Env) (p : Batch) (s : Store) (p' : Batch) (s' : Store)
    (message : Option (EventEnvelope × Bool)) : Prop where
  rows : RowsMove env.now p.relay.policy.maxAttempts
    (fun id => ∃ event fence, p.pc = .markPublished event fence ∧ fence.eventId = id) s s'
  relay : p'.relay = p.relay
  held : ∀ event, p'.holds event →
    p.holds event ∨ Handed (PyStr.strip p.relay.owner) s s' event
  publishing : ∀ event fence, p'.pc = .markPublished event fence → event.Fences fence
    ∧ ∃ envelope, envelopeOf event = .ok envelope ∧ message = some (envelope, true)
  retrying : ∀ event fence details retryAt,
    p'.pc = .markRetry event fence details retryAt → event.Fences fence

/-- A batch that only moved its counters or its place. -/
theorem BatchMove.local_ {message : Option (EventEnvelope × Bool)}
    (hrelay : p'.relay = p.relay) (hheld : ∀ event, p'.holds event → p.holds event)
    (hpublishing : ∀ event fence, p'.pc = .markPublished event fence → event.Fences fence
      ∧ ∃ envelope, envelopeOf event = .ok envelope ∧ message = some (envelope, true))
    (hretrying : ∀ event fence details retryAt,
      p'.pc = .markRetry event fence details retryAt → event.Fences fence) :
    BatchMove env p s p' s message :=
  ⟨RowsMove.refl _ _ _ s, hrelay, fun e he => Or.inl (hheld e he), hpublishing, hretrying⟩

theorem Batch.failing_move {events : List OutboxEvent} {error : PublishError}
    {message : Option (EventEnvelope × Bool)} (hevents : p.events = event :: events) :
    BatchMove env p s (Batch.failing { p with events } env.now event error) s message := by
  unfold Batch.failing
  cases hlease : event.requireLease with
  | error e =>
      refine BatchMove.local_ rfl (fun x hx => ?_) (fun x f h => ?_) fun x f d r h => ?_
      · rcases hx with hx | hx
        · exact Or.inl (by rw [hevents]; exact List.mem_cons_of_mem _ hx)
        · cases hx
      · cases h
      · cases h
  | ok lease =>
      refine BatchMove.local_ rfl (fun x hx => ?_) (fun x f h => ?_) fun x f d r h => ?_
      · rcases hx with hx | hx
        · exact Or.inl (by rw [hevents]; exact List.mem_cons_of_mem _ hx)
        · obtain rfl := Option.some.inj hx
          exact Or.inl (by rw [hevents]; exact List.mem_cons_self)
      · cases h
      · cases h
        exact ⟨lease, hlease, rfl⟩

theorem Batch.processOne_move {events : List OutboxEvent}
    (hevents : p.events = event :: events) (hpc : p.pc = .next) :
    BatchMove env p s (Batch.processOne { p with events } env event).1 s
      (Batch.processOne { p with events } env event).2 := by
  have hrest : ∀ x, x ∈ events → p.holds x :=
    fun x hx => Or.inl (by rw [hevents]; exact List.mem_cons_of_mem _ hx)
  have hcounted : ∀ o message, BatchMove env p s
      { p with events, result := p.result.increment o } s message := by
    intro o message
    refine BatchMove.local_ rfl (fun x hx => ?_) (fun x f h => ?_) fun x f d r h => ?_
    · rcases hx with hx | hx
      · exact hrest x hx
      · exact Or.inr hx
    · simp only [hpc] at h
      cases h
    · simp only [hpc] at h
      cases h
  unfold Batch.processOne
  split
  · exact hcounted _ _
  · split
    · exact hcounted _ _
    · split
      · next lease envelope hlease henv =>
          split
          · refine BatchMove.local_ rfl (fun x hx => ?_) (fun x f h => ?_)
              fun x f d r h => ?_
            · rcases hx with hx | hx
              · exact hrest x hx
              · obtain rfl := Option.some.inj hx
                exact Or.inl (by rw [hevents]; exact List.mem_cons_self)
            · cases h
              exact ⟨⟨lease, hlease, rfl⟩, envelope, henv, rfl⟩
            · cases h
          · exact Batch.failing_move hevents
      · exact Batch.failing_move hevents

/-- A mark, with its outcome counted. -/
theorem Batch.marked_move {hit : Bool} {outcome : Outcome}
    (hrows : RowsMove env.now p.relay.policy.maxAttempts
      (fun id => ∃ event fence, p.pc = .markPublished event fence ∧ fence.eventId = id) s s') :
    BatchMove env p s (p.marked hit outcome) s' none := by
  refine ⟨hrows, rfl, fun x hx => ?_, fun x f h => ?_, fun x f d r h => ?_⟩
  · rcases hx with hx | hx
    · exact Or.inl (Or.inl hx)
    · cases hx
  · cases h
  · cases h

theorem Batch.ended_move (hrows : RowsMove env.now p.relay.policy.maxAttempts
      (fun id => ∃ event fence, p.pc = .markPublished event fence ∧ fence.eventId = id) s s') :
    BatchMove env p s { p with pc := .ended } s' none := by
  refine ⟨hrows, rfl, fun x hx => ?_, fun x f h => ?_, fun x f d r h => ?_⟩
  · rcases hx with hx | hx
    · exact Or.inl (Or.inl hx)
    · cases hx
  · cases h
  · cases h

theorem batchStep_move {message : Option (EventEnvelope × Bool)}
    (h : batchStep env p s = (p', s', message)) : BatchMove env p s p' s' message := by
  unfold batchStep at h
  split at h
  · next hpc =>
      split at h
      · next s₁ hatt =>
          cases h
          refine Batch.ended_move ?_
          obtain ⟨-, rfl⟩ | ⟨x, hx, -⟩ := attempt_cases hatt
          · exact RowsMove.refl _ _ _ _
          · exact (claim_ok hx).1 _
      · next events s₁ hatt =>
          cases h
          obtain ⟨hnone, -⟩ | ⟨x, hx, hsome⟩ := attempt_cases hatt
          · cases hnone
          · obtain rfl := Option.some.inj (hsome.resolve_left (by simp))
            obtain ⟨hrows, hhanded⟩ := claim_ok hx
            refine ⟨hrows _, rfl, fun e he => ?_, fun x f h => ?_, fun x f d r h => ?_⟩
            · rcases he with he | he
              · exact Or.inr (hhanded e he)
              · cases he
            · cases h
            · cases h
  · next hpc =>
      split at h
      · cases h
        exact Batch.ended_move (RowsMove.refl _ _ _ _)
      · next event events hevents =>
          cases h
          exact Batch.processOne_move hevents hpc
  · next event fence hpc =>
      have hmark : ∀ {hit s₁}, markPublished env.now fence s = .ok (hit, s₁) →
          RowsMove env.now p.relay.policy.maxAttempts
            (fun id => ∃ event fence, p.pc = .markPublished event fence
              ∧ fence.eventId = id) s s₁ := by
        intro hit s₁ hok
        rw [show s₁ = (hit, s₁).2 from rfl, markPublished_ok hok]
        exact fencedUpdate_moves _ (fun row _ => ⟨event, fence, hpc, rfl⟩)
          (publishedRow_same env.now) _ _ _
      split at h
      · next s₁ hatt =>
          cases h
          refine Batch.ended_move ?_
          obtain ⟨-, rfl⟩ | ⟨x, hx, -⟩ := attempt_cases hatt
          · exact RowsMove.refl _ _ _ _
          · exact hmark hx
      · next hit s₁ hatt =>
          cases h
          refine Batch.marked_move ?_
          obtain ⟨hnone, -⟩ | ⟨x, hx, -⟩ := attempt_cases hatt
          · cases hnone
          · exact hmark hx
  · next event fence details retryAt hpc =>
      have hmark : ∀ {hit s₁}, markRetry env.now fence details retryAt
          p.relay.policy.maxAttempts s = .ok (hit, s₁) →
          RowsMove env.now p.relay.policy.maxAttempts
            (fun id => ∃ event fence, p.pc = .markPublished event fence
              ∧ fence.eventId = id) s s₁ := by
        intro hit s₁ hok
        rw [show s₁ = (hit, s₁).2 from rfl, markRetry_ok hok]
        refine fencedUpdate_moves _ (fun row hp => ?_)
          (retriedRow_same env.now retryAt _ details) _ _ _
        simp only [retriedRow] at hp
        split at hp
        · cases hp
        · cases hp
      split at h
      · next s₁ hatt =>
          cases h
          refine Batch.ended_move ?_
          obtain ⟨-, rfl⟩ | ⟨x, hx, -⟩ := attempt_cases hatt
          · exact RowsMove.refl _ _ _ _
          · exact hmark hx
      · next hit s₁ hatt =>
          cases h
          refine Batch.marked_move ?_
          obtain ⟨hnone, -⟩ | ⟨x, hx, -⟩ := attempt_cases hatt
          · cases hnone
          · exact hmark hx
  · next hpc =>
      cases h
      refine BatchMove.local_ rfl (fun x hx => hx) (fun x f h => ?_) fun x f d r h => ?_
      · rw [hpc] at h
        cases h
      · rw [hpc] at h
        cases h

-- ================================================================ world

theorem HeldEvent.inserted {token : Nat} (h : HeldEvent s event row token) (new : OutboxRow) :
    HeldEvent { s with rows := s.rows.insert new } event row token :=
  { h with known := Table.get_insert_of_some h.known new }

/-- A batch keeps its invariant when others move. -/
theorem BatchInv.moved (h : BatchInv maxAttempts w p)
    (hheld : ∀ {event row token}, HeldEvent w.store event row token →
      ∃ row', HeldEvent w'.store event row' token)
    (hconfirmed : ∀ e ∈ w.confirmed, e ∈ w'.confirmed) : BatchInv maxAttempts w' p where
  policy := h.policy
  held := by
    intro event he
    obtain ⟨row, token, hrow⟩ := h.held event he
    obtain ⟨row', hrow'⟩ := hheld hrow
    exact ⟨row', token, hrow'⟩
  publishing := by
    intro event fence hpc
    obtain ⟨hfence, envelope, hmem, henv⟩ := h.publishing event fence hpc
    exact ⟨hfence, envelope, hconfirmed _ hmem, henv⟩
  retrying := h.retrying

theorem envelopeOf_isOf {envelope : EventEnvelope} {token : Nat}
    (h : envelopeOf event = .ok envelope) (hheld : HeldEvent s event row token) :
    envelope.IsOf event.eventId row := by
  simp only [envelopeOf, bind_eq_ok, pure_eq_ok] at h
  obtain ⟨-, -, key, -, -, -, rfl⟩ := h
  exact ⟨rfl, hheld.tenantId, hheld.aggregateType, hheld.aggregateId, hheld.eventType,
    hheld.aggregateVersion⟩

/-- The confirms after a step. -/
def confirmedAfter (confirmed : List EventEnvelope)
    (message : Option (EventEnvelope × Bool)) : List EventEnvelope :=
  match message with
  | some (envelope, true) => confirmed ++ [envelope]
  | _ => confirmed

theorem mem_confirmedAfter {confirmed : List EventEnvelope}
    {message : Option (EventEnvelope × Bool)} {e : EventEnvelope} (h : e ∈ confirmed) :
    e ∈ confirmedAfter confirmed message := by
  unfold confirmedAfter
  split
  · exact List.mem_append_left _ h
  · exact h

theorem worldStep_step {k : Nat} {message : Option (EventEnvelope × Bool)}
    (hp : w.batches.get k = some p) (h : batchStep env p w.store = (p', s', message)) :
    worldStep maxAttempts w (.step k env)
      = { store := s', batches := w.batches.modify k fun _ => p'
          confirmed := confirmedAfter w.confirmed message } := by
  simp only [worldStep, hp, h]
  rfl

theorem RelayInv.step_batch (h : RelayInv maxAttempts w) {k : Nat}
    {message : Option (EventEnvelope × Bool)} (hp : w.batches.get k = some p)
    (hmove : BatchMove env p w.store p' s' message) :
    RelayInv maxAttempts { store := s', batches := w.batches.modify k fun _ => p'
                           confirmed := confirmedAfter w.confirmed message } := by
  have hbatch := h.batches k p hp
  have hrows := hmove.rows
  rw [hbatch.policy] at hrows
  refine ⟨fun id row' hrow' => ?_, fun id row' t hrow' ht => ?_, fun id row' hrow' hpub => ?_,
    fun j q hq => ?_⟩
  · obtain ⟨row, hrow⟩ := hrows.old id row' hrow'
    obtain ⟨r, hr, hrm⟩ := hrows.move id row hrow
    obtain rfl := Option.some.inj (hrow'.symm.trans hr)
    exact hrm.attempts_le (h.bounded id row hrow)
  · obtain ⟨row, hrow⟩ := hrows.old id row' hrow'
    obtain ⟨r, hr, hrm⟩ := hrows.move id row hrow
    obtain rfl := Option.some.inj (hrow'.symm.trans hr)
    rcases hrm.token ht with ⟨hold, -⟩ | ⟨-, hlt⟩
    · exact (h.tokens id row t hrow hold).trans_le hrows.uuid
    · exact hlt
  · obtain ⟨row, hrow⟩ := hrows.old id row' hrow'
    obtain ⟨r, hr, hrm⟩ := hrows.move id row hrow
    obtain rfl := Option.some.inj (hrow'.symm.trans hr)
    rcases hrm.published hpub with hold | ⟨event, fence, hpc, hid⟩
    · obtain ⟨envelope, hmem, hof⟩ := h.published id row hrow hold
      exact ⟨envelope, mem_confirmedAfter hmem, hof.kept hrm.same⟩
    · -- the batch that publishes the row got its confirm before
      obtain ⟨⟨lease, hlease, rfl⟩, envelope, hmem, henv⟩ := hbatch.publishing event fence hpc
      obtain ⟨row₀, token, hheld⟩ := hbatch.held event (Or.inr (by rw [hpc]; rfl))
      simp only [OutboxEvent.fence] at hid
      subst hid
      obtain rfl := Option.some.inj (hrow.symm.trans hheld.known)
      exact ⟨envelope, mem_confirmedAfter hmem,
        (envelopeOf_isOf henv hheld).kept hrm.same⟩
  · obtain ⟨rfl, -, -, rfl⟩ | ⟨-, hq⟩ := Table.get_modify_cases hq
    · refine ⟨by rw [hmove.relay]; exact hbatch.policy, fun event he => ?_,
        fun event fence hpc => ?_, hmove.retrying⟩
      · rcases hmove.held event he with hold | hnew
        · obtain ⟨row, token, hheld⟩ := hbatch.held event hold
          obtain ⟨row', hheld'⟩ := hheld.moved hrows
          exact ⟨row', token, hheld'⟩
        · exact hnew.held
      · obtain ⟨hfence, envelope, henv, rfl⟩ := hmove.publishing event fence hpc
        exact ⟨hfence, envelope, List.mem_append_right _ (List.mem_singleton.mpr rfl), henv⟩
    · exact (h.batches j q hq).moved (fun hheld => hheld.moved hrows)
        fun e he => mem_confirmedAfter he

theorem RelayInv.step (h : RelayInv maxAttempts w) (act : Act) :
    RelayInv maxAttempts (worldStep maxAttempts w act) := by
  cases act with
  | insert now new =>
      refine ⟨fun id row hrow => ?_, fun id row t hrow ht => ?_, fun id row hrow hpub => ?_,
        fun k p hp => ?_⟩
      · rcases Table.get_insert_cases hrow with ⟨-, rfl⟩ | hrow
        · exact Nat.zero_le _
        · exact h.bounded id row hrow
      · rcases Table.get_insert_cases hrow with ⟨-, rfl⟩ | hrow
        · cases ht
        · exact h.tokens id row t hrow ht
      · rcases Table.get_insert_cases hrow with ⟨-, rfl⟩ | hrow
        · cases hpub
        · exact h.published id row hrow hpub
      · exact (h.batches k p hp).moved (fun hheld => ⟨_, hheld.inserted _⟩) fun _ he => he
  | start owner eventTypes eventType batchSize leaseSeconds delay tenantId =>
      unfold worldStep
      simp only
      split
      · exact h
      · next relay hrelay =>
          have hpolicy : relay.policy.maxAttempts = maxAttempts := by
            simp only [Relay.init, bind_eq_ok, pure_eq_ok] at hrelay
            obtain ⟨-, -, -, -, -, -, -, -, selected, -, rfl⟩ := hrelay
            rfl
          refine ⟨h.bounded, h.tokens, h.published, fun k p hp => ?_⟩
          obtain ⟨-, rfl⟩ | hp := Table.get_insert_cases hp
          · refine ⟨hpolicy, fun e he => ?_, fun e f hpc => ?_, fun e f d r hpc => ?_⟩
            · rcases he with he | he
              · cases he
              · cases he
            · cases hpc
            · cases hpc
          · exact (h.batches k p hp).moved (fun hheld => ⟨_, hheld⟩) fun _ he => he
  | step k env =>
      cases hp : w.batches.get k with
      | none =>
          simp only [worldStep, hp]
          exact h
      | some p =>
          obtain ⟨p', s', message, hstep⟩ : ∃ p' s' message,
              batchStep env p w.store = (p', s', message) := ⟨_, _, _, rfl⟩
          rw [worldStep_step hp hstep]
          exact h.step_batch hp (batchStep_move hstep)

/-- The invariant holds in every reachable world. -/
theorem relayInv_run (maxAttempts : Nat) (h : WorldOpening w) (acts : List Act) :
    RelayInv maxAttempts (run (worldStep maxAttempts) w acts) :=
  run_invariant (fun _ act hinv => hinv.step act) h.inv acts

end Mosaic.Outbox
