/-
Lease fencing across processes: a request is streamed at most once.

No column of the request row says that the provider has been called.
What keeps a second call away is the order of the worker's short
transactions: a row returns to the queue only from `requeue`, which a
process performs before it opens the stream, and every other way to lose
the lease ends the request. `Live` is that argument on the row, and
`FleetInv` carries it for all processes at once.
-/
import Mosaic.Chat.Proofs.Process

namespace Mosaic.Chat

open Lib Providers

variable {cfg : Config} {env : Env} {who : Caller} {s s' : Store} {p p' : Process}
  {id t : Nat}

-- ================================================================= live

/-- The request is where an execution with token `t` can have left it:
leased to it, or over. It is not in the queue. -/
def Live (s : Store) (id t : Nat) : Prop :=
  ∃ r, s.requests.get id = some r
    ∧ ((r.leaseToken = some t ∧ (r.status = .running ∨ r.status = .stopRequested))
        ∨ r.status.final = true)

theorem Live.not_queued (h : Live s id t) {r : InferenceRequest}
    (hr : s.requests.get id = some r) : r.status ≠ .queued := by
  obtain ⟨r', hr', hst⟩ := h
  obtain rfl := Option.some.inj (hr.symm.trans hr')
  intro hq
  rw [hq] at hst
  simp [RequestStatus.final] at hst

/-- Nobody but its owner puts a leased request back into the queue. -/
theorem Effect.live (heff : Effect who s s')
    (hwho : who.token = some t → who.requeues = false) (h : Live s id t) :
    Live s' id t := by
  obtain ⟨x, hx, hst⟩ := h
  -- an effect on another row leaves this one alone
  have hframe : ∀ {j y y'}, Table.Replaced s.requests s'.requests j y y' → id ≠ j →
      Live s' id t := fun hrep hne => ⟨x, by rw [hrep.other hne, hx], hst⟩
  cases heff with
  | quiet hq => exact ⟨x, by rw [hq.requests, hx], hst⟩
  | opened c ho => exact ⟨x, by rw [ho.requests, hx], hst⟩
  | accepted cid mid c c' r m e o ha =>
      refine ⟨x, ?_, hst⟩
      rw [ha.requests]
      exact Table.get_insert_of_some hx _
  | moved j y y' hm hmove =>
      by_cases hj : id = j
      · subst hj
        obtain rfl := Option.some.inj (hx.symm.trans hm.requests.old)
        have hleased : x.leaseToken = some t
            ∧ (x.status = .running ∨ x.status = .stopRequested) := by
          refine hst.resolve_right fun hfinal => ?_
          simp [RequestStatus.not_final_of_active hm.wasActive] at hfinal
        refine ⟨y', hm.requests.new, Or.inl ?_⟩
        cases hmove with
        | claimed hold => simp [hold] at hleased
        | requeued _ _ hmay hown =>
            have := hwho (hown.2.symm.trans hleased.1)
            simp [this] at hmay
        | beat hsame _ htok => exact ⟨htok.trans hleased.1, hsame ▸ hleased.2⟩
        | stopRequested _ hnew htok => exact ⟨htok.trans hleased.1, Or.inr hnew⟩
      · exact hframe hm.requests hj
  | delta j y y' m m' e text hd =>
      by_cases hj : id = j
      · subst hj
        obtain rfl := Option.some.inj (hx.symm.trans hd.requests.old)
        have hleased := hst.resolve_right (by simp [hd.running.1, RequestStatus.final])
        exact ⟨y', hd.requests.new,
          Or.inl ⟨hd.token.trans hleased.1, Or.inl hd.running.2⟩⟩
      · exact hframe hd.requests hj
  | ended j y y' c c' m m' e he =>
      by_cases hj : id = j
      · subst hj
        exact ⟨y', he.requests.new, Or.inr he.isFinal⟩
      · exact hframe he.requests hj

/-- Tokens are issued upwards. -/
theorem Effect.uuid_le (heff : Effect who s s') : s.nextUuid ≤ s'.nextUuid := by
  cases heff with
  | quiet hq => exact hq.uuid.ge
  | opened c ho => exact ho.uuid.ge
  | accepted cid mid c c' r m e o ha =>
      have := ha.uuid
      omega
  | moved j y y' hm hmove =>
      cases hmove with
      | claimed _ _ _ huuid => omega
      | requeued _ _ _ _ _ huuid => exact huuid.ge
      | beat _ _ _ huuid => exact huuid.ge
      | stopRequested _ _ _ _ huuid => exact huuid.ge
  | delta j y y' m m' e text hd => exact hd.uuid.ge
  | ended j y y' c c' m m' e he => exact he.uuid.ge

theorem Effects.live (heff : Effects who s s')
    (hwho : who.token = some t → who.requeues = false) (h : Live s id t) :
    Live s' id t := by
  cases heff with
  | one heff => exact heff.live hwho h
  | sweep hsweeper hsweep =>
      induction hsweep with
      | refl => exact h
      | tail _ hswept ih => exact hswept.effect.live (fun _ => rfl) ih

theorem Effects.uuid_le (heff : Effects who s s') : s.nextUuid ≤ s'.nextUuid := by
  cases heff with
  | one heff => exact heff.uuid_le
  | sweep _ hsweep =>
      induction hsweep with
      | refl => exact le_rfl
      | tail _ hswept ih => exact ih.trans hswept.effect.uuid_le

-- ================================================================ fleet

/-- All processes at once. A process that requeued its request has no
part in it any more; of the others at most one is about a request, and
its request is live. -/
structure FleetInv (w : World) : Prop where
  chat : ChatInv w.store
  token : ∀ pid p, w.processes.get pid = some p →
    ∃ t, p.current.leaseToken = some t ∧ t < w.store.nextUuid
  distinct : ∀ pid qid p q, w.processes.get pid = some p →
    w.processes.get qid = some q → p.current.leaseToken = q.current.leaseToken →
    pid = qid
  live : ∀ pid p t, w.processes.get pid = some p → p.pc ≠ .requeued →
    p.current.leaseToken = some t → Live w.store p.current.requestDbId t
  alone : ∀ pid qid p q, w.processes.get pid = some p → w.processes.get qid = some q →
    p.pc ≠ .requeued → q.pc ≠ .requeued →
    p.current.requestDbId = q.current.requestDbId → pid = qid
  fresh : ∀ pid p, w.processes.get pid = some p → p.pc.unsubmitted = true →
    p.feed = none
  streamed : ∀ id ∈ w.streams, ∃ pid p, w.processes.get pid = some p
    ∧ p.current.requestDbId = id ∧ p.feed.isSome = true
  once : w.streams.Nodup

variable {w : World}

theorem WorldOpening.fleet (h : WorldOpening w) : FleetInv w := by
  have hnone : ∀ pid, w.processes.get pid = none := by
    intro pid
    rw [h.processes]
    exact Table.get_empty pid
  exact
    { chat := h.store.inv, token := by simp [hnone], distinct := by simp [hnone]
      live := by simp [hnone], alone := by simp [hnone], fresh := by simp [hnone]
      streamed := by simp [h.streams], once := by simp [h.streams] }

/-- A party that requeues nothing changes the store under the fleet. -/
theorem FleetInv.store (h : FleetInv w) (heff : Effects who w.store s')
    (hinv : ChatInv s') (hwho : who.requeues = false) :
    FleetInv { w with store := s' } :=
  { chat := hinv
    token := fun pid p hp => by
      obtain ⟨t, ht, hlt⟩ := h.token pid p hp
      exact ⟨t, ht, hlt.trans_le heff.uuid_le⟩
    distinct := h.distinct
    live := fun pid p t hp hpc ht => heff.live (fun _ => hwho) (h.live pid p t hp hpc ht)
    alone := h.alone, fresh := h.fresh, streamed := h.streamed, once := h.once }

/-- A claim adds a process on a request no other one is live on. -/
theorem FleetInv.claimed (h : FleetInv w) {e : Execution} {r r' : InferenceRequest}
    (hc : Claimed w.store s' e r r') (heff : Effects ⟨none, [], false, false⟩ w.store s')
    (hinv : ChatInv s') (now : Nat) :
    FleetInv { w with store := s', processes := w.processes.insert (.start now e) } := by
  have hold := h.store heff hinv rfl
  have hnew : (Process.start now e).current = e := rfl
  -- the claimed row was queued, so nobody live was about it
  have hfree : ∀ pid p, w.processes.get pid = some p → p.pc ≠ .requeued →
      p.current.requestDbId ≠ e.requestDbId := by
    intro pid p hp hpc hid
    obtain ⟨t, ht, -⟩ := h.token pid p hp
    have hlive := h.live pid p t hp hpc ht
    rw [hid] at hlive
    exact hlive.not_queued hc.requests.old hc.queued
  -- and its token is new
  have hfresh : ∀ pid p, w.processes.get pid = some p →
      p.current.leaseToken ≠ e.leaseToken := by
    intro pid p hp htok
    obtain ⟨t, ht, hlt⟩ := h.token pid p hp
    rw [ht, hc.token.1, Option.some.injEq] at htok
    omega
  refine { chat := hinv, token := ?_, distinct := ?_, live := ?_, alone := ?_
           fresh := ?_, streamed := ?_, once := h.once }
  · intro pid p hp
    obtain ⟨-, rfl⟩ | hp := Table.get_insert_cases hp
    · refine ⟨_, hc.token.1, ?_⟩
      show w.store.nextUuid < s'.nextUuid
      rw [hc.uuid]
      omega
    · exact hold.token pid p hp
  · intro pid qid p q hp hq htok
    obtain ⟨rfl, rfl⟩ | hp := Table.get_insert_cases hp
    · obtain ⟨rfl, rfl⟩ | hq := Table.get_insert_cases hq
      · rfl
      · exact absurd htok.symm (hfresh qid q hq)
    · obtain ⟨rfl, rfl⟩ | hq := Table.get_insert_cases hq
      · exact absurd htok (hfresh pid p hp)
      · exact h.distinct pid qid p q hp hq htok
  · intro pid p t hp hpc ht
    obtain ⟨rfl, rfl⟩ | hp := Table.get_insert_cases hp
    · rw [hnew, hc.token.1] at ht
      obtain rfl := Option.some.inj ht
      exact ⟨r', hc.requests.new, Or.inl ⟨hc.token.2, Or.inl hc.running⟩⟩
    · exact hold.live pid p t hp hpc ht
  · intro pid qid p q hp hq hpp hqp hid
    obtain ⟨rfl, rfl⟩ | hp := Table.get_insert_cases hp
    · obtain ⟨rfl, rfl⟩ | hq := Table.get_insert_cases hq
      · rfl
      · exact absurd hid.symm (hfree qid q hq hqp)
    · obtain ⟨rfl, rfl⟩ | hq := Table.get_insert_cases hq
      · exact absurd hid (hfree pid p hp hpp)
      · exact h.alone pid qid p q hp hq hpp hqp hid
  · intro pid p hp hun
    obtain ⟨-, rfl⟩ | hp := Table.get_insert_cases hp
    · rfl
    · exact h.fresh pid p hp hun
  · intro id hid
    obtain ⟨pid, p, hp, hrest⟩ := h.streamed id hid
    exact ⟨pid, p, Table.get_insert_of_some hp _, hrest⟩

/-- A process after one of them stepped, and the one it was before. -/
theorem stepped_cases {pid qid : Nat} {q' : Process} (hp : w.processes.get pid = some p)
    (hkept : Kept p p')
    (hq : (w.processes.modify pid fun _ => p').get qid = some q') :
    ∃ q, w.processes.get qid = some q
      ∧ q'.current.requestDbId = q.current.requestDbId
      ∧ q'.current.leaseToken = q.current.leaseToken
      ∧ (q'.pc ≠ .requeued → q.pc ≠ .requeued)
      ∧ ((qid = pid ∧ q = p ∧ q' = p') ∨ (qid ≠ pid ∧ q' = q)) := by
  obtain ⟨rfl, x, hx, rfl⟩ | ⟨hne, hq⟩ := Table.get_modify_cases hq
  · refine ⟨p, hp, ?_, ?_, fun hpc hpark => hpc (hkept.parked hpark),
      Or.inl ⟨rfl, rfl, rfl⟩⟩
    · rw [hkept.current]
    · rw [hkept.current]
  · exact ⟨q', hq, rfl, rfl, fun hpc => hpc, Or.inr ⟨hne, rfl⟩⟩

/-- A process steps. -/
theorem FleetInv.work (h : FleetInv w) {pid : Nat} (hp : w.processes.get pid = some p)
    (hkept : Kept p p') (heff : Effects who w.store s')
    (hinv : ChatInv s')
    (htoken : who.token = p.current.leaseToken ∨ who.token = none)
    (hrequeue : who.requeues = true → p.pc = .requeue ∧ p'.pc = .requeued) :
    FleetInv
      { store := s', processes := w.processes.modify pid fun _ => p'
        streams := if p.pc = .openStream then w.streams ++ [p.current.requestDbId]
          else w.streams } := by
  have hget : (w.processes.modify pid fun _ => p').get pid = some p' := by
    rw [Table.get_modify_self, hp]
    rfl
  -- an opened stream stays open
  have hfeed : p.feed.isSome = true → p'.feed.isSome = true := by
    intro hsome
    by_cases hpc : p.pc = .openStream
    · exact hkept.opened hpc
    · rw [hkept.feed hpc]
      exact hsome
  refine { chat := hinv, token := ?_, distinct := ?_, live := ?_, alone := ?_
           fresh := ?_, streamed := ?_, once := ?_ }
  · intro qid q' hq'
    obtain ⟨q, hq, -, htok, -⟩ := stepped_cases hp hkept hq'
    obtain ⟨t, ht, hlt⟩ := h.token qid q hq
    exact ⟨t, htok.trans ht, hlt.trans_le heff.uuid_le⟩
  · intro qid rid q' r' hq' hr' htok
    obtain ⟨q, hq, -, hqt, -⟩ := stepped_cases hp hkept hq'
    obtain ⟨r, hr, -, hrt, -⟩ := stepped_cases hp hkept hr'
    exact h.distinct qid rid q r hq hr (hqt.symm.trans (htok.trans hrt))
  · intro qid q' t hq' hpc ht
    obtain ⟨q, hq, hid, htok, hpark, hwhich⟩ := stepped_cases hp hkept hq'
    rw [hid]
    refine heff.live (fun hwho => ?_)
      (h.live qid q t hq (hpark hpc) (htok.symm.trans ht))
    rw [Bool.eq_false_iff]
    intro hre
    -- the requeuing process is the one that parks
    obtain ⟨-, -, rfl⟩ | ⟨hne, -⟩ := hwhich
    · exact hpc (hrequeue hre).2
    · have hown : p.current.leaseToken = some t := by
        obtain hown | hnone := htoken
        · exact hown.symm.trans hwho
        · simp [hnone] at hwho
      exact hne (h.distinct qid pid q p hq hp ((htok.symm.trans ht).trans hown.symm))
  · intro qid rid q' r' hq' hr' hqp hrp hid
    obtain ⟨q, hq, hqid, -, hqpark, -⟩ := stepped_cases hp hkept hq'
    obtain ⟨r, hr, hrid, -, hrpark, -⟩ := stepped_cases hp hkept hr'
    exact h.alone qid rid q r hq hr (hqpark hqp) (hrpark hrp)
      (hqid.symm.trans (hid.trans hrid))
  · intro qid q' hq' hun
    obtain ⟨q, hq, -, -, -, hwhich⟩ := stepped_cases hp hkept hq'
    obtain ⟨-, rfl, rfl⟩ | ⟨-, rfl⟩ := hwhich
    · obtain ⟨hbefore, hopen⟩ := hkept.unsubmitted hun
      rw [hkept.feed hopen]
      exact h.fresh qid q hq hbefore
    · exact h.fresh qid q' hq hun
  · intro id hid
    have hstill : id ∈ w.streams → ∃ qid q, (w.processes.modify pid fun _ => p').get qid
        = some q ∧ q.current.requestDbId = id ∧ q.feed.isSome = true := by
      intro hmem
      obtain ⟨qid, q, hq, hqid, hsome⟩ := h.streamed id hmem
      by_cases hne : qid = pid
      · subst hne
        obtain rfl := Option.some.inj (hq.symm.trans hp)
        exact ⟨qid, p', hget, by rw [hkept.current]; exact hqid, hfeed hsome⟩
      · exact ⟨qid, q, by rw [Table.get_modify_ne _ fun he => hne he.symm, hq], hqid, hsome⟩
    by_cases hopen : p.pc = .openStream
    · simp only [hopen, if_true, List.mem_append, List.mem_singleton] at hid
      obtain hid | rfl := hid
      · exact hstill hid
      · exact ⟨pid, p', hget, by rw [hkept.current], hkept.opened hopen⟩
    · simp only [hopen, if_false] at hid
      exact hstill hid
  · by_cases hopen : p.pc = .openStream
    · simp only [hopen, if_true]
      refine List.nodup_append.mpr ⟨h.once, by simp, ?_⟩
      rintro id hid x hx rfl
      obtain rfl := List.mem_singleton.mp hx
      -- whoever streamed it is this process, which has not
      obtain ⟨qid, q, hq, hqid, hsome⟩ := h.streamed _ hid
      have hun : p.pc.unsubmitted = true := by rw [hopen]; rfl
      have hqpc : q.pc ≠ .requeued := by
        intro hpark
        simp [h.fresh qid q hq (by rw [hpark]; rfl)] at hsome
      obtain rfl := h.alone qid pid q p hq hp hqpc (by simp [hopen]) hqid
      obtain rfl := Option.some.inj (hq.symm.trans hp)
      simp [h.fresh qid q hq hun] at hsome
    · simp only [hopen, if_false]
      exact h.once

-- ============================================================= one act

theorem FleetInv.acted {act : Act} {w' : World} (h : FleetInv w)
    (hacted : Acted cfg w act w') : FleetInv w' := by
  cases hacted with
  | outside act who s' heff htoken hkeeps hends =>
      exact h.store heff (h.chat.effects heff) hkeeps.1
  | settled act now tenantId reservationId capture s' hs =>
      have heff := step_effects cfg.book h.chat
        (.billing (settleCall cfg.book w.store now tenantId reservationId capture))
      rw [← hs] at heff
      exact h.store heff (h.chat.effects heff) rfl
  | started act now e r r' s' hc heff =>
      exact h.claimed hc heff (h.chat.effects heff) now
  | worked pid env p p' s' hp hstep =>
      obtain ⟨who, heff, htoken, hrequeue, -⟩ := (workerStep_wrote hstep).effects h.chat
      exact h.work hp (workerStep_kept hstep) heff (h.chat.effects heff) htoken hrequeue

/-- The fleet invariant holds in every reachable world. -/
theorem fleetInv_run (cfg : Config) (h : WorldOpening w) (acts : List Act) :
    FleetInv (run (worldStep cfg) w acts) :=
  run_invariant (fun _ act hinv => hinv.acted (worldStep_acted _ hinv.chat act)) h.fleet
    acts

-- ========================================================= at most once

/-- A process about a streamed request has streamed it, unless it parked. -/
theorem FleetInv.streamed_by (h : FleetInv w) {pid : Nat}
    (hp : w.processes.get pid = some p) (hpc : p.pc ≠ .requeued)
    (hmem : p.current.requestDbId ∈ w.streams) : p.feed.isSome = true := by
  obtain ⟨qid, q, hq, hqid, hsome⟩ := h.streamed _ hmem
  have hqpc : q.pc ≠ .requeued := by
    intro hpark
    simp [h.fresh qid q hq (by rw [hpark]; rfl)] at hsome
  obtain rfl := h.alone qid pid q p hq hp hqpc hpc hqid
  obtain rfl := Option.some.inj (hq.symm.trans hp)
  exact hsome

/-- A streamed request is not in the queue. -/
theorem FleetInv.streamed_not_queued (h : FleetInv w) (hmem : id ∈ w.streams)
    {r : InferenceRequest} (hr : w.store.requests.get id = some r) :
    r.status ≠ .queued := by
  obtain ⟨pid, p, hp, rfl, hsome⟩ := h.streamed id hmem
  have hpc : p.pc ≠ .requeued := by
    intro hpark
    simp [h.fresh pid p hp (by rw [hpark]; rfl)] at hsome
  obtain ⟨t, ht, -⟩ := h.token pid p hp
  exact (h.live pid p t hp hpc ht).not_queued hr

/-- Only a caller that may requeue fills the queue with an old request. -/
theorem Effect.to_queue (heff : Effect who s s') (hkeeps : who.requeues = false)
    {r : InferenceRequest} (hr : s.requests.get id = some r)
    (hq : r.status ≠ .queued) :
    ∃ r', s'.requests.get id = some r' ∧ r'.status ≠ .queued := by
  have hframe : ∀ {j y y'}, Table.Replaced s.requests s'.requests j y y' →
      (id = j → r = y → y'.status ≠ .queued) →
      ∃ r', s'.requests.get id = some r' ∧ r'.status ≠ .queued := by
    intro j y y' hrep hnew
    by_cases hj : id = j
    · subst hj
      exact ⟨y', hrep.new, hnew rfl (Option.some.inj (hr.symm.trans hrep.old))⟩
    · exact ⟨r, by rw [hrep.other hj, hr], hq⟩
  cases heff with
  | quiet h => exact ⟨r, by rw [h.requests, hr], hq⟩
  | opened c h => exact ⟨r, by rw [h.requests, hr], hq⟩
  | accepted cid mid c c' x m e o h =>
      exact ⟨r, by rw [h.requests]; exact Table.get_insert_of_some hr _, hq⟩
  | moved j y y' h hmove =>
      refine hframe h.requests fun _ hry => ?_
      cases hmove with
      | claimed _ hnew => simp [hnew]
      | requeued _ _ hmay => simp [hkeeps] at hmay
      | beat hsame => rw [hsame, ← hry]; exact hq
      | stopRequested _ hnew => simp [hnew]
  | delta j y y' m m' e text h =>
      exact hframe h.requests fun _ _ => by simp [h.running.2]
  | ended j y y' c c' m m' e h =>
      refine hframe h.requests fun _ _ hqueued => ?_
      have := h.isFinal
      simp [hqueued, RequestStatus.final] at this

theorem Effects.to_queue (heff : Effects who s s') (hkeeps : who.requeues = false)
    {r : InferenceRequest} (hr : s.requests.get id = some r)
    (hq : r.status ≠ .queued) :
    ∃ r', s'.requests.get id = some r' ∧ r'.status ≠ .queued := by
  cases heff with
  | one heff => exact heff.to_queue hkeeps hr hq
  | sweep _ hsweep =>
      induction hsweep with
      | refl => exact ⟨r, hr, hq⟩
      | tail _ hswept ih =>
          obtain ⟨r₁, hr₁, hq₁⟩ := ih
          exact hswept.effect.to_queue rfl hr₁ hq₁

/-- The only act that puts a request back is the requeue of a process
that has not called the provider. -/
theorem FleetInv.requeued_by {act : Act} {w' : World} (h : FleetInv w)
    (hacted : Acted cfg w act w') {r r' : InferenceRequest}
    (hr : w.store.requests.get id = some r) (hr' : w'.store.requests.get id = some r')
    (hq : r.status ≠ .queued) (hq' : r'.status = .queued) :
    id ∉ w.streams ∧ ∃ pid env p, act = .work pid env
      ∧ w.processes.get pid = some p ∧ p.current.requestDbId = id ∧ p.pc = .requeue
      ∧ p.feed = none := by
  have habsurd : ∀ {who : Caller}, Effects who w.store w'.store →
      who.requeues = false → False := by
    intro who heff hkeeps
    obtain ⟨x, hx, hne⟩ := heff.to_queue hkeeps hr hq
    obtain rfl := Option.some.inj (hr'.symm.trans hx)
    exact hne hq'
  cases hacted with
  | outside act who s' heff htoken hkeeps hends => exact (habsurd heff hkeeps.1).elim
  | settled act now tenantId reservationId capture s' hs =>
      exact (habsurd (hs ▸ step_effects cfg.book h.chat (.billing _)) rfl).elim
  | started act now e x x' s' hc heff => exact (habsurd heff rfl).elim
  | worked pid env p p' s' hp hstep =>
      cases workerStep_wrote hstep with
      | nothing hs =>
          obtain rfl := Option.some.inj (hr.symm.trans (hs ▸ hr'))
          exact absurd hq' hq
      | call op howner hkeeps hends hs =>
          exact (habsurd (hs ▸ step_effects cfg.book h.chat op) hkeeps.1).elim
      | settle call hcall hs =>
          exact (habsurd (hs ▸ step_effects cfg.book h.chat (.billing call)) rfl).elim
      | requeue now hpc hparked hs =>
          have hid : p.current.requestDbId = id := by
            by_contra hne
            have hsame : s'.requests.get id = w.store.requests.get id := by
              rw [hs]
              exact requeueClaimed_other now (fun he => hne he.symm) w.store
            obtain rfl := Option.some.inj (hr.symm.trans (hsame.symm.trans hr'))
            exact hq hq'
          have hfeed : p.feed = none := h.fresh pid p hp (by rw [hpc]; rfl)
          refine ⟨fun hmem => ?_, pid, env, p, rfl, hp, hid, hpc, hfeed⟩
          have := h.streamed_by hp (by simp [hpc]) (hid ▸ hmem)
          simp [hfeed] at this

/-- The provider is called at most once for a request: whatever the
deliveries, workers, requeues, stops, lease expiries and crashes, no
request is streamed twice, a request goes back to the queue only by the
requeue of a process that has not streamed, and no claim gets a request
that has been streamed. -/
theorem stream_at_most_once_run {w : World} (h : WorldOpening w) (acts : List Act) :
    (run (worldStep cfg) w acts).streams.Nodup
      ∧ (∀ act id r r',
          (run (worldStep cfg) w acts).store.requests.get id = some r →
          (run (worldStep cfg) w (acts ++ [act])).store.requests.get id = some r' →
          r.status ≠ .queued → r'.status = .queued →
          id ∉ (run (worldStep cfg) w acts).streams
            ∧ ∃ pid env p, act = .work pid env
              ∧ (run (worldStep cfg) w acts).processes.get pid = some p
              ∧ p.current.requestDbId = id ∧ p.pc = .requeue ∧ p.feed = none)
      ∧ (∀ pid p now, (run (worldStep cfg) w acts).processes.get pid = some p →
          p.pc = .requeue →
          (requeueClaimed now p.current (run (worldStep cfg) w acts).store).1 = true →
          p.feed = none ∧ p.current.requestDbId ∉ (run (worldStep cfg) w acts).streams)
      ∧ (∀ now catalog locked workerId leaseSeconds tenantId requestId e s',
          claimQueued now catalog locked workerId leaseSeconds tenantId requestId
            (run (worldStep cfg) w acts).store = .ok (some e, s') →
          e.requestDbId ∉ (run (worldStep cfg) w acts).streams) := by
  have hinv := fleetInv_run cfg h acts
  refine ⟨hinv.once, ?_, ?_, ?_⟩
  · intro act id r r' hr hr' hq hq'
    rw [run_concat] at hr'
    exact hinv.requeued_by (worldStep_acted _ hinv.chat act) hr hr' hq hq'
  · intro pid p now hp hpc _
    have hfeed : p.feed = none := hinv.fresh pid p hp (by rw [hpc]; rfl)
    refine ⟨hfeed, fun hmem => ?_⟩
    have := hinv.streamed_by hp (by simp [hpc]) hmem
    simp [hfeed] at this
  · intro now catalog locked workerId leaseSeconds tenantId requestId e s' hclaim hmem
    obtain ⟨r, r', hc⟩ := claimQueued_claimed hclaim
    exact hinv.streamed_not_queued hmem hc.requests.old hc.queued

/-- A twice delivered request, streamed once. -/
theorem stream_at_most_once_run_sample :
    WorldOpening sampleWorld
      ∧ (run (worldStep sampleConfig) sampleWorld sampleActs).streams = [0]
      ∧ ∀ e s', claimQueued 100 sampleCatalog (fun _ => false) "worker" 60 none none
          (run (worldStep sampleConfig) sampleWorld sampleActs).store = .ok (some e, s') →
        e.requestDbId ∉ (run (worldStep sampleConfig) sampleWorld sampleActs).streams :=
  ⟨sampleWorld_opening, by decide +kernel, fun e s' =>
    (stream_at_most_once_run sampleWorld_opening sampleActs).2.2.2 100 sampleCatalog
      (fun _ => false) "worker" 60 none none e s'⟩

end Mosaic.Chat
