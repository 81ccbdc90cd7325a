/-
What a worker holds is what it has stored.

A process keeps the text of its answer in memory; the same text goes,
delta by delta, into the log and the message of its request. `RetoldInv`
says that the two agree while the process holds its lease and may still
store the text (`Process.told`). It rests on two counters: a request in
the queue has only its `started` event, and so has the request of a
process that has not called the provider, which is the only kind that
parks one.
-/
import Mosaic.Chat.Proofs.Completion
import Mosaic.Chat.Proofs.Replay
import Mosaic.Chat.Proofs.Wording

namespace Mosaic.Chat

open Lib Providers

variable {cfg : Config} {env : Env} {who : Caller} {s s' : Store} {p p' : Process}
  {w w' : World} {id t : Nat} {r r' : InferenceRequest}

-- ================================================================= logs

/-- A log of one event has no text. -/
theorem deltas_of_first {log : List StreamEvent} (h : LogWellFormed r log)
    (hcounter : r.lastEventSequence = 0) : deltas log = "" := by
  obtain ⟨first, rest, rfl, hopens⟩ := h.opened
  have hlen := h.counter
  rw [hcounter] at hlen
  have hrest : rest = [] := by
    rw [← List.length_eq_zero_iff]
    simp only [List.length_cons] at hlen
    omega
  subst hrest
  have htext : first.body.text = "" := by
    cases hb : first.body with
    | delta text =>
        simp only [hb, EventBody.started?] at hopens
        cases hopens
    | _ => rfl
  simp [deltas, htext]

/-- Two readings of one log with the same counter are the same. -/
theorem log_of_counter (hinv : ChatInv s) (hinv' : ChatInv s')
    (hpre : s.log id <+: s'.log id) (hr : s.requests.get id = some r)
    (hr' : s'.requests.get id = some r')
    (hcounter : r'.lastEventSequence = r.lastEventSequence) : s'.log id = s.log id := by
  have hlen := (hinv.log.wellFormed id r hr).counter
  have hlen' := (hinv'.log.wellFormed id r' hr').counter
  refine (hpre.eq_of_length ?_).symm
  omega

/-- Nobody else writes to the log of a request whose token is held. -/
theorem Effects.log_kept (heff : Effects who s s') (hinv : ChatInv s)
    (hwho : who.token ≠ some t) (ht : t < s.nextUuid)
    (hr' : s'.requests.get id = some r') (hown : r'.leaseToken = some t) :
    s'.log id = s.log id := by
  obtain ⟨r, hr, hund⟩ := heff.undisturbed hwho ht hr' hown
  obtain ⟨hinv', hpre, -⟩ :=
    heff.carry hinv (fun _ heff hl => Logged.effect hl heff) (Logged.now hr)
  exact log_of_counter hinv hinv' hpre hr hr' hund.counter

-- ============================================================ the queue

/-- A request in the queue has its first event only. -/
def QueuedFresh (s : Store) : Prop :=
  ∀ id r, s.requests.get id = some r → r.status = .queued → r.lastEventSequence = 0

theorem QueuedFresh.replaced {j : Nat} {y y' : InferenceRequest} (h : QueuedFresh s)
    (hrep : Table.Replaced s.requests s'.requests j y y')
    (hnew : y'.status = .queued → y'.lastEventSequence = 0) : QueuedFresh s' := by
  intro i x hx hq
  obtain ⟨-, rfl⟩ | ⟨-, hx⟩ := hrep.cases hx
  · exact hnew hq
  · exact h i x hx hq

theorem QueuedFresh.effect (h : QueuedFresh s) (heff : Effect who s s')
    (hwho : who.requeues = false) : QueuedFresh s' := by
  cases heff with
  | quiet hq => exact fun i x hx => h i x (hq.requests ▸ hx)
  | opened c ho => exact fun i x hx => h i x (ho.requests ▸ hx)
  | accepted cid mid c c' y m e o ha =>
      intro i x hx hq
      rw [ha.requests] at hx
      obtain ⟨-, rfl⟩ | hx := Table.get_insert_cases hx
      · exact ha.counter
      · exact h i x hx hq
  | moved j y y' hm hmove =>
      refine h.replaced hm.requests fun hq => ?_
      cases hmove with
      | claimed _ hnew => simp [hnew] at hq
      | requeued _ _ hmay => simp [hwho] at hmay
      | beat hst =>
          rw [hm.counter]
          exact h j y hm.requests.old (hst.symm.trans hq)
      | stopRequested _ hnew => simp [hnew] at hq
  | delta j y y' m m' e text hd =>
      refine h.replaced hd.requests fun hq => ?_
      simp [hd.running.2] at hq
  | ended j y y' c c' m m' e he =>
      refine h.replaced he.requests fun hq => ?_
      have := he.isFinal
      simp [hq, RequestStatus.final] at this

theorem QueuedFresh.effects (h : QueuedFresh s) (heff : Effects who s s')
    (hwho : who.requeues = false) : QueuedFresh s' := by
  cases heff with
  | one heff => exact h.effect heff hwho
  | sweep _ hsweep =>
      induction hsweep with
      | refl => exact h
      | tail _ hswept ih => exact ih.effect hswept.effect rfl

/-- A process that parks puts its own request back as it claimed it. -/
theorem QueuedFresh.requeued (h : QueuedFresh s) (now : Nat) {e : Execution}
    (hfresh : ∀ r, lockedRequest s e = some r → r.lastEventSequence = 0) :
    QueuedFresh (requeueClaimed now e s).2 := by
  unfold requeueClaimed
  split
  · exact h
  · next r hr =>
      have hlock := (Option.filter_eq_some_iff.mp hr).1
      have hget := (lockedRequest_some hlock).1
      exact h.replaced (Table.replaced_modify hget _) fun _ => hfresh r hlock

-- ============================================================ one process

/-- The text of its answer, where a process may still store it. -/
def Process.told (p : Process) : Option String :=
  match p.pc with
  | .stopping point => some point.content
  | .finalCheck _ => some p.content
  | pc => if pc.inSync = true then some p.content else none

theorem Process.told_of_inSync (h : p.pc.inSync = true) : p.told = some p.content := by
  unfold told
  cases hpc : p.pc <;> simp_all [Pc.inSync]

theorem Process.told_finalCheck {finished : Bool} (h : p.pc = .finalCheck finished) :
    p.told = some p.content := by
  simp only [told, h]

theorem Process.told_stopping {point : StopPoint} (h : p.pc = .stopping point) :
    p.told = some point.content := by
  simp only [told, h]

/-- Where a process does not stop it says the text it holds, if any. -/
theorem Process.told_cases {text : String} (h : p.told = some text) :
    (∃ point, p.pc = .stopping point ∧ text = point.content)
      ∨ ((p.pc.inSync = true ∨ ∃ finished, p.pc = .finalCheck finished) ∧ text = p.content) := by
  cases hpc : p.pc with
  | stopping point =>
      rw [told_stopping hpc, Option.some.injEq] at h
      exact Or.inl ⟨point, rfl, h.symm⟩
  | finalCheck finished =>
      rw [told_finalCheck hpc, Option.some.injEq] at h
      exact Or.inr ⟨Or.inr ⟨finished, rfl⟩, h.symm⟩
  | _ =>
      simp only [told, hpc, Option.ite_none_right_eq_some, Option.some.injEq] at h
      exact Or.inr ⟨Or.inl h.1, h.2.symm⟩

/-- What a step does to the text a process says: nothing, or it takes up
the delta it has just stored. -/
inductive Said (p p' : Process) (s s' : Store) : Prop
  | kept (hcontent : p'.content = p.content)
      (hsequence : p'.current.lastEventSequence = p.current.lastEventSequence)
      (htold : ∀ text, p'.told = some text → s'.events = s.events
        ∧ (p.told = some text
          ∨ (p.told = some p.content ∧ p.pc.unsubmitted = true ∧ text = "")))
  | said (chunk : TextStreamChunk) (ev : StreamEvent) (r : InferenceRequest)
      (hpc : p.pc = .append chunk) (hnext : p'.pc = .next)
      (hcontent : p'.content = p.content ++ chunk.delta)
      (hevents : s'.events = s.events.insert ev)
      (hrequest : ev.inferenceRequestId = p.current.requestDbId)
      (hbody : ev.body = .delta chunk.delta)
      (hlocked : lockedRequest s p.current = some r ∧ r.status = .running)

/-- A step that winds down. -/
theorem Said.silent (hcontent : p'.content = p.content) (hcurrent : p'.current = p.current)
    (htold : p'.told = none) : Said p p' s s' :=
  Said.kept hcontent (by rw [hcurrent]) fun text h => by rw [htold] at h; cases h

/-- A step that writes no event and does not stop. -/
theorem Said.move (hcontent : p'.content = p.content) (hcurrent : p'.current = p.current)
    (htold : p.told = some p.content) (hevents : s'.events = s.events)
    (hpoint : ∀ point, p'.pc ≠ .stopping point) : Said p p' s s' := by
  refine Said.kept hcontent (by rw [hcurrent]) fun text h => ⟨hevents, Or.inl ?_⟩
  obtain ⟨point, hpc, -⟩ | ⟨-, rfl⟩ := Process.told_cases h
  · exact absurd hpc (hpoint point)
  · rw [htold, hcontent]

@[simp] theorem raise_content (p : Process) (region : Region) :
    (p.raise region).content = p.content := by cases region <;> rfl

theorem raise_not_stopping (p : Process) (region : Region) (point : StopPoint) :
    (p.raise region).pc ≠ .stopping point := by cases region <;> simp [Process.raise]

theorem raise_told (p : Process) (region : Region) : (p.raise region).told = none := by
  cases region <;> rfl

theorem Said.raise (p : Process) (region : Region) (s' : Store) (c : Nat) :
    Said p ({ p with clock := c }.raise region) s s' :=
  Said.silent (by simp) (by simp) (raise_told _ _)

theorem leaseCheck_said {region : Region} {content : String} {invalid : Pc}
    {go : Process → Process}
    (h : leaseCheck cfg env p s region content invalid go = (p', s'))
    (htold : p.told = some p.content)
    (hcontent : (p.pc.unsubmitted = true ∧ content = "") ∨ content = p.content)
    (hinvalid : ∀ point, invalid ≠ .stopping point)
    (hgo : ∀ c, (go { p with clock := c }).content = p.content
      ∧ (go { p with clock := c }).current = p.current
      ∧ ∀ point, (go { p with clock := c }).pc ≠ .stopping point) : Said p p' s s' := by
  have hsilent := (checkLeaseAndStop_silent cfg.leaseExtensionSeconds
    (p.clock + env.elapsed) p.current s).2
  obtain ⟨rfl, -⟩ | ⟨rfl, -, rfl⟩ | ⟨rfl, -, -, rfl⟩ | ⟨rfl, -, -, rfl⟩ :=
    leaseCheck_cases h
  · exact Said.raise p region s' _
  · exact Said.move rfl rfl htold hsilent hinvalid
  · refine Said.kept rfl rfl fun text h => ⟨hsilent, ?_⟩
    obtain rfl : content = text := by simpa [Process.told] using h
    obtain hempty | rfl := hcontent
    · exact Or.inr ⟨htold, hempty⟩
    · exact Or.inl htold
  · obtain ⟨hc, hcurrent, hpoint⟩ := hgo (p.clock + env.elapsed + env.wait)
    exact Said.move hc hcurrent htold hsilent hpoint

/-- A delta that was written, as the log shows it. -/
theorem appendDelta_event {ext now lockedNow : Nat} {e : Execution} {seq n : Int}
    {delta : String} {provider : Option String}
    (h : appendDelta ext now lockedNow e seq delta provider s = .ok (some n, s')) :
    ∃ ev r, s'.events = s.events.insert ev ∧ ev.inferenceRequestId = e.requestDbId
      ∧ ev.body = .delta delta ∧ lockedRequest s e = some r ∧ r.status = .running := by
  simp only [appendDelta, bind_eq_ok] at h
  obtain ⟨-, -, h⟩ := h
  split at h
  · rw [pure_eq_ok] at h
    cases h
  · next r hfilter =>
      have hlock : lockedRequest s e = some r := by
        have hw := (Option.filter_eq_some_iff.mp hfilter).1
        exact (Option.filter_eq_some_iff.mp hw).1
      have hrun : r.status = .running := by simpa using (writable_of_filter hfilter).status
      split at h
      · rw [pure_eq_ok] at h
        cases h
      · simp only [bind_eq_ok, pure_eq_ok, Prod.mk.injEq] at h
        obtain ⟨-, -, -, rfl⟩ := h
        exact ⟨_, r, rfl, rfl, rfl, hlock, hrun⟩

/-- What a step says. -/
theorem workerStep_said (h : workerStep cfg env p s = (p', s')) : Said p p' s s' := by
  cases hpc : p.pc with
  | firstCheck =>
      have htold : p.told = some p.content := Process.told_of_inSync (by rw [hpc]; rfl)
      simp only [workerStep, hpc] at h
      exact leaseCheck_said h htold (Or.inl ⟨by rw [hpc]; rfl, rfl⟩) (by simp)
        fun c => ⟨rfl, rfl, by simp⟩
  | secondCheck =>
      have htold : p.told = some p.content := Process.told_of_inSync (by rw [hpc]; rfl)
      simp only [workerStep, hpc] at h
      exact leaseCheck_said h htold (Or.inl ⟨by rw [hpc]; rfl, rfl⟩) (by simp)
        fun c => ⟨rfl, rfl, by simp⟩
  | finalCheck finished =>
      have htold : p.told = some p.content := Process.told_finalCheck hpc
      simp only [workerStep, hpc] at h
      exact leaseCheck_said h htold (Or.inr rfl) (by simp) fun c => ⟨rfl, rfl, by simp⟩
  | checkChunk chunk =>
      have htold : p.told = some p.content := Process.told_of_inSync (by rw [hpc]; rfl)
      simp only [workerStep, hpc] at h
      refine leaseCheck_said h htold (Or.inr rfl) (by simp) fun c => ?_
      cases coherentProviderRequestId p.providerRequestId chunk.requestId with
      | none => exact ⟨rfl, rfl, raise_not_stopping _ .submitted⟩
      | some provider =>
          refine ⟨rfl, rfl, fun point => ?_⟩
          by_cases hdelta : chunk.delta = "" <;> simp [hdelta]
  | append chunk =>
      simp only [workerStep, hpc] at h
      split at h
      · obtain ⟨rfl, rfl⟩ := h
        exact Said.raise p .submitted _ _
      · next s₁ hattempt =>
          obtain ⟨rfl, rfl⟩ := h
          have htold : p.told = some p.content := Process.told_of_inSync (by rw [hpc]; rfl)
          refine Said.move rfl rfl htold ?_ (by simp)
          obtain ⟨habsurd, -⟩ | ⟨x, hx, hb⟩ := attempt_cases hattempt
          · cases habsurd
          · obtain rfl : none = x := by simpa using hb
            rw [appendDelta_none hx]
      · next sequence s₁ hattempt =>
          obtain ⟨rfl, rfl⟩ := h
          obtain ⟨habsurd, -⟩ | ⟨x, hx, hb⟩ := attempt_cases hattempt
          · cases habsurd
          · obtain rfl : some sequence = x := by simpa using hb
            obtain ⟨ev, r, hevents, hrequest, hbody, hlocked⟩ := appendDelta_event hx
            exact Said.said chunk ev r hpc rfl rfl hevents hrequest hbody hlocked
  | begin =>
      have htold : p.told = some p.content := Process.told_of_inSync (by rw [hpc]; rfl)
      simp only [workerStep, hpc] at h
      split_ifs at h
      all_goals
        obtain ⟨rfl, rfl⟩ := h
        exact Said.move rfl rfl htold rfl (by simp)
  | prepare =>
      have htold : p.told = some p.content := Process.told_of_inSync (by rw [hpc]; rfl)
      simp only [workerStep, hpc] at h
      split_ifs at h
      · obtain ⟨rfl, rfl⟩ := h
        exact Said.move rfl rfl htold rfl (by simp)
      · split at h
        all_goals
          obtain ⟨rfl, rfl⟩ := h
          exact Said.move rfl rfl htold rfl (by simp)
  | next =>
      have htold : p.told = some p.content := Process.told_of_inSync (by rw [hpc]; rfl)
      simp only [workerStep, hpc] at h
      split_ifs at h
      · obtain ⟨rfl, rfl⟩ := h
        exact Said.raise p .submitted _ p.clock
      · split at h
        · obtain ⟨rfl, rfl⟩ := h
          exact Said.move rfl rfl htold rfl (by simp)
        · next e rest hrest =>
            obtain ⟨rfl, rfl⟩ := h
            unfold Process.raiseProvider
            split <;> exact Said.move rfl rfl htold rfl (by simp)
        · obtain ⟨rfl, rfl⟩ := h
          exact Said.raise p .submitted _ p.clock
        · obtain ⟨rfl, rfl⟩ := h
          exact Said.move rfl rfl htold rfl (by simp)
  | requeue =>
      have htold : p.told = some p.content := Process.told_of_inSync (by rw [hpc]; rfl)
      simp only [workerStep, hpc] at h
      split at h
      · obtain ⟨rfl, rfl⟩ := h
        exact Said.move rfl rfl htold rfl (by simp)
      · obtain ⟨rfl, rfl⟩ := h
        cases (requeueClaimed (p.clock + env.elapsed) p.current s).1 <;>
          exact Said.silent rfl rfl rfl
  | openStream =>
      have htold : p.told = some p.content := Process.told_of_inSync (by rw [hpc]; rfl)
      simp only [workerStep, hpc] at h
      obtain ⟨rfl, rfl⟩ := h
      exact Said.move rfl rfl htold rfl (by simp)
  | stopping point =>
      simp only [workerStep, hpc] at h
      split at h
      · obtain ⟨rfl, rfl⟩ := h
        exact Said.raise p point.region _ _
      all_goals
        obtain ⟨rfl, rfl⟩ := h
        exact Said.silent rfl rfl rfl
  | releasing region =>
      simp only [workerStep, hpc] at h
      split at h
      · obtain ⟨rfl, rfl⟩ := h
        exact Said.silent rfl rfl rfl
      · split at h
        · obtain ⟨rfl, rfl⟩ := h
          exact Said.raise p region _ _
        · obtain ⟨rfl, rfl⟩ := h
          exact Said.silent rfl rfl rfl
  | complete =>
      simp only [workerStep, hpc] at h
      split at h
      · obtain ⟨rfl, rfl⟩ := h
        exact Said.raise p .submitted _ _
      all_goals
        obtain ⟨rfl, rfl⟩ := h
        exact Said.silent rfl rfl rfl
  | capture =>
      simp only [workerStep, hpc] at h
      split at h
      all_goals
        obtain ⟨rfl, rfl⟩ := h
        exact Said.silent rfl rfl rfl
  | failing code details provider reserved =>
      simp only [workerStep, hpc] at h
      split at h
      · obtain ⟨rfl, rfl⟩ := h
        cases reserved <;> exact Said.silent rfl rfl rfl
      · obtain ⟨rfl, rfl⟩ := h
        exact Said.silent rfl rfl rfl
  | markingUnknown code provider =>
      simp only [workerStep, hpc] at h
      obtain ⟨rfl, rfl⟩ := h
      exact Said.silent rfl rfl rfl
  | requeued | ended =>
      simp only [workerStep, hpc] at h
      obtain ⟨rfl, rfl⟩ := h
      exact Said.silent rfl rfl (by simp [Process.told, hpc, Pc.inSync])

-- ============================================================= invariant

/-- What the process says is what the log of its request says. -/
def Retold (s : Store) (p : Process) : Prop :=
  ∀ text, p.told = some text → ∀ r, Holds s p r →
    deltas (s.log p.current.requestDbId) = text

structure RetoldInv (w : World) : Prop where
  queued : QueuedFresh w.store
  unread : ∀ pid p, w.processes.get pid = some p → p.pc.unsubmitted = true →
    p.current.lastEventSequence = 0
  retold : ∀ pid p, w.processes.get pid = some p → Retold w.store p

/-- Somebody else's effect. -/
theorem Retold.undisturbed (h : Retold s p) (hinv : ChatInv s) (heff : Effects who s s')
    (hp : p.current.leaseToken = some t) (ht : t < s.nextUuid)
    (hwho : who.token ≠ some t) : Retold s' p := by
  intro text htold r' hr'
  obtain ⟨r, hr, hund⟩ := heff.undisturbed hwho ht hr'.1 (hr'.2.trans hp)
  rw [heff.log_kept hinv hwho ht hr'.1 (hr'.2.trans hp)]
  exact h text htold r ⟨hr, hund.token.symm.trans hr'.2⟩

/-- A process that starts has said nothing, and nothing is logged. -/
theorem Claimed.retold {e : Execution} (hc : Claimed s s' e r r') (hinv : ChatInv s)
    (hfresh : QueuedFresh s) (now : Nat) : Retold s' (.start now e) := by
  intro text htold _ _
  obtain rfl : "" = text := Option.some.inj htold
  show deltas (s'.log e.requestDbId) = ""
  rw [log_congr hc.events]
  exact deltas_of_first (hinv.log.wellFormed _ r hc.requests.old)
    (hfresh _ r hc.requests.old hc.queued)

/-- A token that was issued before the effect was on its row before. -/
theorem Effect.token_before (heff : Effect who s s') (ht : t < s.nextUuid)
    (hr' : s'.requests.get id = some r') (hown : r'.leaseToken = some t) :
    ∃ r, s.requests.get id = some r ∧ r.leaseToken = some t := by
  have hframe : ∀ {j y y'}, Table.Replaced s.requests s'.requests j y y' →
      (y'.leaseToken = some t → y.leaseToken = some t) →
      ∃ r, s.requests.get id = some r ∧ r.leaseToken = some t := by
    intro j y y' hrep hnew
    obtain ⟨rfl, rfl⟩ | ⟨-, hr⟩ := hrep.cases hr'
    · exact ⟨y, hrep.old, hnew hown⟩
    · exact ⟨r', hr, hown⟩
  cases heff with
  | quiet h => exact ⟨r', h.requests ▸ hr', hown⟩
  | opened c h => exact ⟨r', h.requests ▸ hr', hown⟩
  | accepted cid mid c c' x m e o h =>
      rw [h.requests] at hr'
      obtain ⟨-, rfl⟩ | hr := Table.get_insert_cases hr'
      · simp [h.unleased] at hown
      · exact ⟨r', hr, hown⟩
  | moved j y y' h hmove =>
      refine hframe h.requests fun hy' => ?_
      cases hmove with
      | claimed _ _ htok =>
          rw [htok, Option.some.injEq] at hy'
          omega
      | requeued _ _ _ _ htok => simp [htok] at hy'
      | beat _ _ htok => exact htok.symm.trans hy'
      | stopRequested _ _ htok => exact htok.symm.trans hy'
  | delta j y y' m m' e text h => exact hframe h.requests fun hy' => h.token.symm.trans hy'
  | ended j y y' c c' m m' e h =>
      refine hframe h.requests fun hy' => ?_
      simp [h.token] at hy'

theorem Effects.token_before (heff : Effects who s s') (ht : t < s.nextUuid)
    (hr' : s'.requests.get id = some r') (hown : r'.leaseToken = some t) :
    ∃ r, s.requests.get id = some r ∧ r.leaseToken = some t := by
  cases heff with
  | one heff => exact heff.token_before ht hr' hown
  | sweep hwho hsweep =>
      -- the sweep holds no token
      obtain ⟨r, hr, hund⟩ := (Effects.sweep hwho hsweep).undisturbed (t := t)
        (by simp [hwho, sweeper]) ht hr' hown
      exact ⟨r, hr, hund.token.symm.trans hown⟩

/-- Its own step. -/
theorem Retold.own (h : Retold s p) (hinv : ChatInv s) (hread : ReadInv cfg s p)
    (hp : p.current.leaseToken = some t) (ht : t < s.nextUuid)
    (hstep : workerStep cfg env p s = (p', s')) : Retold s' p' := by
  intro text htold r' ⟨hget, htok⟩
  have hkept := workerStep_kept hstep
  have hid : p'.current.requestDbId = p.current.requestDbId := by rw [hkept.current]
  have htoken : p'.current.leaseToken = p.current.leaseToken := by rw [hkept.current]
  obtain ⟨who, heff, -⟩ := (workerStep_wrote hstep).effects hinv
  rw [hid] at hget ⊢
  obtain ⟨r, hr, hown⟩ := heff.token_before ht hget (htok.trans (htoken.trans hp))
  have hholds : Holds s p r := ⟨hr, hown.trans hp.symm⟩
  cases workerStep_said hstep with
  | kept hcontent hsequence htells =>
      obtain ⟨hsame, hwas | ⟨hwas, hun, rfl⟩⟩ := htells text htold
      · rw [log_congr hsame]
        exact h text hwas r hholds
      · -- nothing was taken from a stream that is not open
        rw [log_congr hsame, h p.content hwas r hholds]
        exact (hread.remembers.unread hun).1
  | said chunk ev x hpc hnext hcontent hevents hrequest hbody hlocked =>
      obtain rfl : p'.content = text := by
        rw [Process.told_of_inSync (by rw [hnext]; rfl)] at htold
        exact Option.some.inj htold
      rw [log_insert_self hevents hrequest, deltas_snoc, hbody, hcontent]
      rw [h p.content (Process.told_of_inSync (by rw [hpc]; rfl)) r hholds]
      rfl

theorem RetoldInv.acted {act : Act} (h : RetoldInv w) (hstream : StreamInv cfg w)
    (hacted : Acted cfg w act w') : RetoldInv w' := by
  have hchat := hstream.fleet.chat
  have hothers : ∀ {who : Caller} {s' : Store}, Effects who w.store s' →
      ∀ pid p, w.processes.get pid = some p →
      (∀ t, p.current.leaseToken = some t → who.token ≠ some t) → Retold s' p := by
    intro who s' heff pid p hp hwho
    obtain ⟨t, ht, hlt⟩ := hstream.fleet.token pid p hp
    exact (h.retold pid p hp).undisturbed hchat heff ht hlt (hwho t ht)
  cases hacted with
  | outside act who s' heff htoken hkeeps hends =>
      exact
        { queued := h.queued.effects heff hkeeps.1, unread := h.unread
          retold := fun pid p hp => hothers heff pid p hp fun t _ => by simp [htoken] }
  | settled act now tenantId reservationId capture s' hs =>
      have heff := step_effects cfg.book hchat
        (.billing (settleCall cfg.book w.store now tenantId reservationId capture))
      rw [← hs] at heff
      exact
        { queued := h.queued.effects heff rfl, unread := h.unread
          retold := fun pid p hp => hothers heff pid p hp fun t _ => by simp [Op.caller] }
  | started act now e r r' s' hc heff =>
      refine { queued := h.queued.effects heff rfl, unread := ?_, retold := ?_ }
      · intro pid p hp hun
        obtain ⟨-, rfl⟩ | hp := Table.get_insert_cases hp
        · exact hc.sequence.1.trans (h.queued _ r hc.requests.old hc.queued)
        · exact h.unread pid p hp hun
      · intro pid p hp
        obtain ⟨-, rfl⟩ | hp := Table.get_insert_cases hp
        · exact hc.retold hchat h.queued now
        · exact hothers heff pid p hp fun t _ => by simp
  | worked pid env p p' s' hp hstep =>
      have hwrote := workerStep_wrote hstep
      have hkept := workerStep_kept hstep
      obtain ⟨t, ht, hlt⟩ := hstream.fleet.token pid p hp
      refine { queued := ?_, unread := ?_, retold := ?_ }
      · cases hwrote with
        | nothing hs => exact hs ▸ h.queued
        | call op howner hkeeps hends hs =>
            exact hs ▸ h.queued.effects (step_effects cfg.book hchat op) hkeeps.1
        | settle call hcall hs =>
            exact hs ▸ h.queued.effects (step_effects cfg.book hchat (.billing call)) rfl
        | requeue now hpc hparked hs =>
            subst hs
            refine h.queued.requeued now fun r hr => ?_
            have hcounter := (hstream.reads pid p hp).synced (by rw [hpc]; rfl) r
              (holds_of_locked hr)
            exact hcounter.1.trans (h.unread pid p hp (by rw [hpc]; rfl))
      · intro qid q hq hun
        obtain ⟨rfl, x, hx, rfl⟩ | ⟨-, hq⟩ := Table.get_modify_cases hq
        · have hwas := h.unread qid p hp (hkept.unsubmitted hun).1
          cases workerStep_said hstep with
          | kept hcontent hsequence => exact hsequence.trans hwas
          | said chunk ev r hpc hnext hcontent hevents hrequest hbody hlocked =>
              simp [hnext, Pc.unsubmitted] at hun
        · exact h.unread qid q hq hun
      · intro qid q hq
        obtain ⟨rfl, x, hx, rfl⟩ | ⟨hne, hq⟩ := Table.get_modify_cases hq
        · exact (h.retold qid p hp).own hchat (hstream.reads qid p hp) ht hlt hstep
        · obtain ⟨who, heff, htoken, -⟩ := hwrote.effects hchat
          refine hothers heff qid q hq fun t' ht' => ?_
          obtain hown | hnone := htoken
          · intro hwho
            exact hne (hstream.fleet.distinct qid pid q p hq hp
              (ht'.trans (hwho.symm.trans hown)))
          · simp [hnone]

theorem WorldOpening.retoldInv (h : WorldOpening w) : RetoldInv w := by
  refine { queued := ?_, unread := ?_, retold := ?_ }
  · intro id r hr
    simp [h.store.requests] at hr
  · intro pid p hp
    simp [h.processes] at hp
  · intro pid p hp
    simp [h.processes] at hp

end Mosaic.Chat
