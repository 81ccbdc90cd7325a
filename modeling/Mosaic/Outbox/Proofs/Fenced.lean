/-
The law of the fenced relay.

`RelayLaw` says of a state and the act that comes next what the relay
promises: a published row was confirmed by the broker, a row that left
`pending` never moves again, attempts count the claims, a running lease
keeps everybody else out, a mark needs the current lease, and what a batch
reports about a row is what happened to it. `relay_fenced` is the law, in
every run.
-/
import Mosaic.Outbox.Proofs.Relay

namespace Mosaic.Outbox

open Lib

variable {s s' : Store} {w : World} {p p' : Batch} {env : Env} {row row' : OutboxRow}
  {id maxAttempts : Nat} {event : OutboxEvent}

-- ============================================================== reports

/-- The status a counter stands for. -/
def Outcome.status? : Outcome → Option OutboxStatus
  | .published => some .published
  | .retried => some .pending
  | .failed => some .failed
  | .fenced => none
  | .skipped => none

/-- The row of the event the batch was marking has this status. -/
def Settles (p : Batch) (s' : Store) (status : OutboxStatus) : Prop :=
  ∃ event row', p.pc.event? = some event ∧ s'.rows.get event.eventId = some row'
    ∧ row'.status = status

/-- Counting an outcome moves its own counter, by one. -/
theorem increment_count {r : RelayBatchResult} {f o : Outcome}
    (h : (r.increment f).count o ≠ r.count o) :
    (r.increment f).count o = r.count o + 1 ∧ o = f := by
  by_cases ho : o = f
  · subst ho
    simp [RelayBatchResult.increment]
  · simp [RelayBatchResult.increment, ho] at h

/-- Before its marks a batch counts only what it leaves alone. -/
theorem processOne_count {events : List OutboxEvent} {o : Outcome}
    (h : ((Batch.processOne { p with events } env event).1).result.count o
      ≠ p.result.count o) :
    ((Batch.processOne { p with events } env event).1).result.count o
        = p.result.count o + 1 ∧ o.status? = none := by
  have hcounted : ∀ f : Outcome, f.status? = none →
      (p.result.increment f).count o ≠ p.result.count o →
      (p.result.increment f).count o = p.result.count o + 1 ∧ o.status? = none := by
    intro f hf hne
    obtain ⟨hone, rfl⟩ := increment_count hne
    exact ⟨hone, hf⟩
  have hfailing : ∀ error : PublishError,
      (Batch.failing { p with events } env.now event error).result.count o
        ≠ p.result.count o →
      (Batch.failing { p with events } env.now event error).result.count o
        = p.result.count o + 1 ∧ o.status? = none := by
    intro error hne
    unfold Batch.failing at hne ⊢
    cases hlease : event.requireLease with
    | error e =>
        simp only [hlease] at hne ⊢
        exact hcounted .fenced rfl hne
    | ok lease =>
        simp only [hlease] at hne
        exact absurd rfl hne
  unfold Batch.processOne at h ⊢
  split at h
  · next hc =>
      rw [if_pos hc]
      exact hcounted .skipped rfl h
  · next hc =>
      rw [if_neg hc]
      split at h
      · next ho =>
          rw [if_pos ho]
          exact hcounted .fenced rfl h
      · next ho =>
          rw [if_neg ho]
          split at h
          · next lease envelope hlease henv =>
              split at h
              · exact absurd rfl h
              · next error herror => exact hfailing error h
          · next hnot => exact hfailing valueError h

/-- A retry mark that hits gives the row the status the relay expects: as
long as the row carries the event's token, it carries its attempts. -/
theorem BatchInv.retried (h : BatchInv maxAttempts w p) {fence : Fence}
    {details : OutboxErrorDetails} {retryAt : Nat}
    (hpc : p.pc = .markRetry event fence details retryAt)
    (hmark : markRetry env.now fence details retryAt p.relay.policy.maxAttempts w.store
      = .ok (true, s')) :
    ∃ row', s'.rows.get event.eventId = some row'
      ∧ row'.status = if p.relay.policy.shouldRetry event.attempts details.retryable = true
        then .pending else .failed := by
  obtain ⟨lease, hlease, rfl⟩ := h.retrying event fence details retryAt hpc
  obtain ⟨row, token, hheld⟩ := h.held event (Or.inr (by rw [hpc]; rfl))
  have htoken : lease.2 = token := by
    unfold OutboxEvent.requireLease at hlease
    rw [hheld.leased] at hlease
    cases howner : event.claimOwner with
    | none => simp [howner] at hlease
    | some owner =>
        simp only [howner, Except.ok.injEq] at hlease
        rw [← hlease]
  have hok := markRetry_ok hmark
  rcases fencedUpdate_cases
      { (event.fence lease) with owner := PyStr.strip (event.fence lease).owner }
      (retriedRow env.now retryAt p.relay.policy.maxAttempts details) w.store with
    ⟨heq, -⟩ | ⟨row₀, hrow₀, hadmits, heq⟩
  · rw [heq] at hok
    cases hok
  · rw [heq] at hok
    obtain ⟨-, rfl⟩ := Prod.mk.inj hok
    have hrow₀ : w.store.rows.get event.eventId = some row₀ := hrow₀
    obtain rfl := Option.some.inj (hrow₀.symm.trans hheld.known)
    have hattempts : row₀.attempts = event.attempts := by
      refine hheld.attempts ?_
      rw [Fence.admits_token hadmits, ← htoken]
      rfl
    have hretry : (decide (row₀.attempts < p.relay.policy.maxAttempts) && details.retryable)
        = p.relay.policy.shouldRetry event.attempts details.retryable := by
      rw [hattempts, Bool.and_comm]
      rfl
    exact ⟨_, (Table.replaced_modify hrow₀ _).new, by simp only [retriedRow, hretry]⟩

theorem BatchInv.published_row (h : BatchInv maxAttempts w p) {fence : Fence}
    (hpc : p.pc = .markPublished event fence)
    (hmark : markPublished env.now fence w.store = .ok (true, s')) :
    ∃ row', s'.rows.get event.eventId = some row' ∧ row'.status = .published := by
  obtain ⟨⟨lease, hlease, rfl⟩, -⟩ := h.publishing event fence hpc
  have hok := markPublished_ok hmark
  rcases fencedUpdate_cases
      { (event.fence lease) with owner := PyStr.strip (event.fence lease).owner }
      (publishedRow env.now) w.store with ⟨heq, -⟩ | ⟨row, hrow, -, heq⟩
  · rw [heq] at hok
    cases hok
  · rw [heq] at hok
    obtain ⟨-, rfl⟩ := Prod.mk.inj hok
    exact ⟨_, (Table.replaced_modify hrow _).new, rfl⟩

/-- What a batch reports about a row is what happened to the row. -/
theorem BatchInv.reported (h : BatchInv maxAttempts w p)
    {message : Option (EventEnvelope × Bool)}
    (hstep : batchStep env p w.store = (p', s', message)) {o : Outcome}
    (hne : p'.result.count o ≠ p.result.count o) :
    p'.result.count o = p.result.count o + 1
      ∧ ∀ status, o.status? = some status → Settles p s' status := by
  have hfenced : ∀ {hit : Bool} {outcome : Outcome},
      (p.marked hit outcome).result.count o ≠ p.result.count o →
      (p.marked hit outcome).result.count o = p.result.count o + 1
        ∧ o = if hit then outcome else .fenced := by
    intro hit outcome hne
    exact increment_count hne
  unfold batchStep at hstep
  split at hstep
  · next hpc =>
      split at hstep
      · cases hstep
        exact absurd rfl hne
      · cases hstep
        exact absurd rfl hne
  · next hpc =>
      split at hstep
      · cases hstep
        exact absurd rfl hne
      · next event events hevents =>
          cases hstep
          obtain ⟨hone, hnone⟩ := processOne_count hne
          refine ⟨hone, fun status hst => ?_⟩
          rw [hnone] at hst
          cases hst
  · next event fence hpc =>
      split at hstep
      · cases hstep
        exact absurd rfl hne
      · next hit s₁ hatt =>
          cases hstep
          obtain ⟨hone, ho⟩ := hfenced hne
          refine ⟨hone, fun status hst => ?_⟩
          obtain ⟨hnone, -⟩ | ⟨x, hx, hsome⟩ := attempt_cases hatt
          · cases hnone
          · obtain rfl := Option.some.inj (hsome.resolve_left (by simp))
            cases hit with
            | false =>
                rw [ho] at hst
                cases hst
            | true =>
                rw [ho] at hst
                obtain rfl := Option.some.inj hst
                obtain ⟨row', hrow', hstatus⟩ := h.published_row hpc hx
                exact ⟨event, row', by rw [hpc]; rfl, hrow', hstatus⟩
  · next event fence details retryAt hpc =>
      split at hstep
      · cases hstep
        exact absurd rfl hne
      · next hit s₁ hatt =>
          cases hstep
          obtain ⟨hone, ho⟩ := hfenced hne
          refine ⟨hone, fun status hst => ?_⟩
          obtain ⟨hnone, -⟩ | ⟨x, hx, hsome⟩ := attempt_cases hatt
          · cases hnone
          · obtain rfl := Option.some.inj (hsome.resolve_left (by simp))
            cases hit with
            | false =>
                rw [ho] at hst
                cases hst
            | true =>
                obtain ⟨row', hrow', hstatus⟩ := h.retried hpc hx
                refine ⟨event, row', by rw [hpc]; rfl, hrow', ?_⟩
                rw [hstatus]
                rw [ho, if_pos rfl] at hst
                split at hst
                · next hretry =>
                    rw [if_pos hretry]
                    exact Option.some.inj hst
                · next hretry =>
                    rw [if_neg hretry]
                    exact Option.some.inj hst
  · cases hstep
    exact absurd rfl hne

-- ============================================================== the law

/-- The row got a new lease. -/
def OutboxRow.Claimed (row row' : OutboxRow) : Prop :=
  row'.leaseToken ≠ none ∧ row'.leaseToken ≠ row.leaseToken

instance (row row' : OutboxRow) : Decidable (row.Claimed row') :=
  inferInstanceAs (Decidable (_ ∧ _))

/-- What an act may do to a row. -/
structure RowLaw (act : Act) (row row' : OutboxRow) : Prop where
  /-- A row that is published or failed stays as it is. -/
  absorbing : row.status ≠ .pending → row' = row
  /-- Attempts grow by one with every claim, and not otherwise. -/
  counted : row'.attempts = if row.Claimed row' then row.attempts + 1 else row.attempts
  /-- A claim finds no lease that is still running by its clock. -/
  exclusive : row.Claimed row' →
    ∃ k env, act = .step k env ∧ row.leaseExpiresAt.all (· ≤ env.now) = true

structure RelayLaw (maxAttempts : Nat) (w : World) (act : Act) : Prop where
  /-- A published row's own event was confirmed by the broker. -/
  confirmed : ∀ id row, w.store.rows.get id = some row → row.status = .published →
    ∃ envelope ∈ w.confirmed, envelope.IsOf id row
  bounded : ∀ id row, w.store.rows.get id = some row → row.attempts ≤ maxAttempts
  rows : ∀ id row, w.store.rows.get id = some row →
    ∃ row', (worldStep maxAttempts w act).store.rows.get id = some row' ∧ RowLaw act row row'
  /-- A mark under any other lease than the current one changes nothing. -/
  fenced : ∀ f row, w.store.rows.get f.eventId = some row →
    (row.claimOwner ≠ some (PyStr.strip f.owner) ∨ row.leaseToken ≠ some f.leaseToken) →
    (∀ now hit s', markPublished now f w.store = .ok (hit, s') →
        hit = false ∧ s' = w.store)
      ∧ ∀ now details retryAt attempts hit s',
        markRetry now f details retryAt attempts w.store = .ok (hit, s') →
          hit = false ∧ s' = w.store
  /-- A counter a batch moves, it moves by one, and the row of its event
  has the status the counter stands for. -/
  reported : ∀ k env p p', act = .step k env → w.batches.get k = some p →
    (worldStep maxAttempts w act).batches.get k = some p' →
    ∀ o, p'.result.count o ≠ p.result.count o →
      p'.result.count o = p.result.count o + 1
        ∧ ∀ status, o.status? = some status →
          Settles p (worldStep maxAttempts w act).store status

/-- Of a pending row under no or another lease, no fence is admitted. -/
theorem fencedUpdate_stale (f : Fence) {change : OutboxRow → OutboxRow}
    (hrow : s.rows.get f.eventId = some row)
    (hstale : row.claimOwner ≠ some f.owner ∨ row.leaseToken ≠ some f.leaseToken) :
    fencedUpdate f change s = (false, s) := by
  rcases fencedUpdate_cases f change s with ⟨heq, -⟩ | ⟨row₀, hrow₀, hadmits, -⟩
  · exact heq
  · obtain rfl := Option.some.inj (hrow.symm.trans hrow₀)
    simp only [Fence.admits, Bool.and_eq_true, beq_iff_eq] at hadmits
    rcases hstale with hstale | hstale
    · exact absurd hadmits.1.2 hstale
    · exact absurd hadmits.2 hstale

theorem rowLaw_kept (act : Act) (row : OutboxRow) : RowLaw act row row := by
  have hnot : ¬ row.Claimed row := fun h => h.2 rfl
  exact ⟨fun _ => rfl, by rw [if_neg hnot], fun h => absurd h hnot⟩

theorem RowMove.law {k : Nat} {may : Nat → Prop}
    (h : RowMove env.now maxAttempts may s s' id row row')
    (htoken : ∀ t, row.leaseToken = some t → t < s.nextUuid) :
    RowLaw (.step k env) row row' := by
  have hunclaimed : row'.attempts = row.attempts → row'.leaseToken = none →
      row.status = .pending → RowLaw (.step k env) row row' := by
    intro hatt hnone hpending
    have hnot : ¬ row.Claimed row' := fun hc => hc.1 hnone
    exact ⟨fun hs => absurd hpending hs, by rw [if_neg hnot, hatt], fun hc => absurd hc hnot⟩
  cases h with
  | kept h =>
      rw [h]
      exact rowLaw_kept _ row
  | leased owner token leaseUntil hpending hattempts hfree hfresh hdrawn h =>
      rw [leaseRow, if_pos hpending] at h
      have hclaimed : row.Claimed row' := by
        rw [h]
        refine ⟨by simp, fun heq => ?_⟩
        have := htoken token heq.symm
        omega
      refine ⟨fun hs => absurd hpending hs, ?_, fun _ => ⟨k, env, rfl, hfree⟩⟩
      rw [if_pos hclaimed, h]
  | exhausted hpending hfailed hattempts hnone hsame => exact hunclaimed hattempts hnone hpending
  | marked f hid hfence hstatus hattempts hnone hsame =>
      exact hunclaimed hattempts hnone (Fence.admits_pending hfence)

/-- Every act of every run of any number of relays over one table keeps the
law, whatever the broker, the clocks and the transactions do. -/
theorem relay_fenced (h : WorldOpening w) (maxAttempts : Nat) (acts : List Act) (act : Act) :
    RelayLaw maxAttempts (run (worldStep maxAttempts) w acts) act := by
  have hinv := relayInv_run maxAttempts h acts
  generalize run (worldStep maxAttempts) w acts = v at hinv
  refine ⟨hinv.published, hinv.bounded, fun id row hrow => ?_, fun f row hrow hstale => ?_,
    fun k env p p' hact hp hp' o hne => ?_⟩
  · cases act with
    | insert now new => exact ⟨row, Table.get_insert_of_some hrow _, rowLaw_kept _ row⟩
    | start owner eventTypes eventType batchSize leaseSeconds delay tenantId =>
        unfold worldStep
        simp only
        split
        · exact ⟨row, hrow, rowLaw_kept _ row⟩
        · exact ⟨row, hrow, rowLaw_kept _ row⟩
    | step k env =>
        cases hp : v.batches.get k with
        | none =>
            simp only [worldStep, hp]
            exact ⟨row, hrow, rowLaw_kept _ row⟩
        | some p =>
            obtain ⟨p', s', message, hstep⟩ : ∃ p' s' message,
                batchStep env p v.store = (p', s', message) := ⟨_, _, _, rfl⟩
            rw [worldStep_step hp hstep]
            obtain ⟨row', hrow', hmove⟩ := (batchStep_move hstep).rows.move id row hrow
            exact ⟨row', hrow', hmove.law fun t ht => hinv.tokens id row t hrow ht⟩
  · have hmiss : ∀ change, fencedUpdate { f with owner := PyStr.strip f.owner } change
        v.store = (false, v.store) :=
      fun change => fencedUpdate_stale { f with owner := PyStr.strip f.owner } hrow hstale
    constructor
    · intro now hit s' hmark
      have hok := markPublished_ok hmark
      rw [hmiss] at hok
      exact Prod.mk.inj hok
    · intro now details retryAt attempts hit s' hmark
      have hok := markRetry_ok hmark
      rw [hmiss] at hok
      exact Prod.mk.inj hok
  · subst hact
    obtain ⟨q', s', message, hstep⟩ : ∃ q' s' message,
        batchStep env p v.store = (q', s', message) := ⟨_, _, _, rfl⟩
    rw [worldStep_step hp hstep] at hp' ⊢
    rw [Table.get_modify_self, hp] at hp'
    obtain rfl := Option.some.inj hp'
    exact (hinv.batches k p hp).reported hstep hne

def sampleWorld : World :=
  { store := { rows := Table.empty, nextUuid := 0 }, batches := Table.empty, confirmed := [] }

/-- A step at second `n` in which everything goes well. -/
def sampleStep (n : Nat) : Act :=
  .step 0 { now := n * 1000000, locked := fun _ => false, db := .committed
            broker := .confirmed }

/-- A chat command is written, claimed and published. -/
def sampleActs : List Act :=
  [.insert 0 { tenantId := 1, aggregateType := "conversation", aggregateId := 0
               eventType := CHAT_ROUTING_KEY, aggregateVersion := 1, payload := [] },
   .start "relay" none (some CHAT_ROUTING_KEY) 50 60 (fun n => n) none,
   sampleStep 1, sampleStep 2]

theorem relay_fenced_sample :
    RelayLaw 5 (run (worldStep 5) sampleWorld sampleActs) (sampleStep 3)
      ∧ ((run (worldStep 5) sampleWorld (sampleActs ++ [sampleStep 3])).store.rows.get 0).map
          (fun row => (row.status, row.attempts)) = some (.published, 1) :=
  ⟨relay_fenced ⟨rfl, rfl, rfl⟩ 5 sampleActs (sampleStep 3), by decide +kernel⟩

end Mosaic.Outbox
