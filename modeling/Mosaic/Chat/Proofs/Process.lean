/-
What a process and an act can do.

`workerStep` is a large function; two facts about it are proved here,
and most arguments about processes start from them: a step keeps the
execution's identity and the stream it opened (`Kept`), and what it
writes is one call under its own token (`Wrote`). `Claimed` is the same
for the claim that starts a process, and `Acted` collects the parties:
an act changes the store from outside, settles a reservation, starts a
process, or lets one step.
-/
import Mosaic.Chat.Proofs.Steps
import Mosaic.Chat.World

namespace Mosaic.Chat

open Lib Providers

variable {cfg : Config} {env : Env} {who : Caller} {s s' : Store} {p p' : Process}
  {id : Nat}

-- ====================================================== a process steps

/-- The process has not called the provider. -/
def Pc.unsubmitted : Pc → Bool
  | .begin => true
  | .firstCheck => true
  | .prepare => true
  | .requeue => true
  | .secondCheck => true
  | .openStream => true
  | .requeued => true
  | _ => false

/-- What every step of a process leaves alone. -/
structure Kept (p p' : Process) : Prop where
  current : p'.current = { p.current with
    lastEventSequence := p'.current.lastEventSequence
    providerRequestId := p'.current.providerRequestId }
  clock : p.clock ≤ p'.clock
  feed : p.pc ≠ .openStream → p'.feed = p.feed
  opened : p.pc = .openStream → p'.feed.isSome = true
  unsubmitted : p'.pc.unsubmitted = true →
    p.pc.unsubmitted = true ∧ p.pc ≠ .openStream
  parked : p.pc = .requeued → p'.pc = .requeued

/-- The two calls of the billing service a process makes. -/
inductive Settling (book : Catalog.PriceBook) (p : Process) (s : Store) :
    Billing.Call → Prop
  | release (now reservationId : Nat) (hpc : ∃ region, p.pc = .releasing region)
      (hres : p.current.reservationId = some reservationId) :
      Settling book p s (.release now .none p.current.tenantId reservationId)
  | capture (now reservationId : Nat) (hpc : p.pc = .capture)
      (hres : p.current.reservationId = some reservationId) :
      Settling book p s (.capture now .none (s.sources book)
        { tenantId := p.current.tenantId, reservationId
          usage := some (billingUsage (p.usage.getD {})) })

/-- What a step of a process can do to the store: one call under its own
token. Only a process that parks puts its request back. -/
inductive Wrote (book : Catalog.PriceBook) (p p' : Process) (s s' : Store) : Prop
  | nothing (h : s' = s)
  | call (op : Op)
      (howner : op.caller.token = p.current.leaseToken)
      (hkeeps : op.caller.requeues = false ∧ op.caller.settles = false)
      (hends : op.caller.outcomes.contains .succeeded = true → p.pc = .complete)
      (h : s' = step book s op)
  | settle (call : Billing.Call) (hcall : Settling book p s call)
      (h : s' = step book s (.billing call))
  | requeue (now : Nat) (hpc : p.pc = .requeue) (hparked : p'.pc = .requeued)
      (h : s' = step book s (.requeueClaimed now p.current))

theorem step_of_ok {book : Catalog.PriceBook} {op : Op}
    (h : op.perform book s = .ok s') : step book s op = s' := by
  unfold step
  rw [h]

/-- The four ways a lease check goes on. -/
theorem leaseCheck_cases {region : Region} {content : String} {invalid : Pc}
    {go : Process → Process}
    (h : leaseCheck cfg env p s region content invalid go = (p', s')) :
    let now := p.clock + env.elapsed
    let q : Process := { p with clock := now + env.wait }
    let check := checkLeaseAndStop cfg.leaseExtensionSeconds now p.current s
    (p' = q.raise region ∧ (s' = s ∨ s' = check.2))
      ∨ (s' = check.2 ∧ check.1.leaseValid = false ∧ p' = { q with pc := invalid })
      ∨ (s' = check.2 ∧ check.1.leaseValid = true ∧ check.1.stopRequested = true
          ∧ p' = { q with pc := .stopping ⟨region, content⟩ })
      ∨ (s' = check.2 ∧ check.1.leaseValid = true ∧ check.1.stopRequested = false
          ∧ p' = go q) := by
  intro now q check
  unfold leaseCheck at h
  simp only at h
  split at h
  · next s₁ hattempt =>
      obtain ⟨rfl, rfl⟩ := h
      left
      refine ⟨rfl, ?_⟩
      obtain ⟨-, rfl⟩ | ⟨x, hx, -⟩ := attempt_cases hattempt
      · exact Or.inl rfl
      · exact Or.inr (congrArg Prod.snd (Except.ok.inj hx)).symm
  · next c s₁ hattempt =>
      obtain ⟨habs, -⟩ | ⟨x, hx, hc⟩ := attempt_cases hattempt
      · cases habs
      · obtain rfl : c = x := by simpa using hc
        have hx : check = (c, s₁) := Except.ok.inj hx
        rw [hx]
        right
        split at h
        · next hvalid =>
            obtain ⟨rfl, rfl⟩ := h
            exact Or.inl ⟨rfl, hvalid, rfl⟩
        · next hvalid =>
            split at h
            · next hstop =>
                obtain ⟨rfl, rfl⟩ := h
                exact Or.inr (Or.inl ⟨rfl, by simpa using hvalid, hstop, rfl⟩)
            · next hstop =>
                obtain ⟨rfl, rfl⟩ := h
                exact Or.inr (Or.inr
                  ⟨rfl, by simpa using hvalid, by simpa using hstop, rfl⟩)

/-- A step that moves only the counter and the clock. -/
theorem Kept.move (hcurrent : p'.current = p.current) (hclock : p.clock ≤ p'.clock)
    (hfeed : p'.feed = p.feed) (hopen : p.pc ≠ .openStream) (hpark : p.pc ≠ .requeued)
    (hpc : p'.pc.unsubmitted = true → p.pc.unsubmitted = true) : Kept p p' :=
  { current := by rw [hcurrent], clock := hclock, feed := fun _ => hfeed
    opened := fun h => absurd h hopen, unsubmitted := fun h => ⟨hpc h, hopen⟩
    parked := fun h => absurd h hpark }

@[simp] theorem raise_current (p : Process) (region : Region) :
    (p.raise region).current = p.current := by cases region <;> rfl

@[simp] theorem raise_clock (p : Process) (region : Region) :
    (p.raise region).clock = p.clock := by cases region <;> rfl

@[simp] theorem raise_feed (p : Process) (region : Region) :
    (p.raise region).feed = p.feed := by cases region <;> rfl

@[simp] theorem raise_unsubmitted (p : Process) (region : Region) :
    (p.raise region).pc.unsubmitted = false := by cases region <;> rfl

theorem leaseCheck_kept {region : Region} {content : String} {invalid : Pc}
    {go : Process → Process}
    (h : leaseCheck cfg env p s region content invalid go = (p', s'))
    (hopen : p.pc ≠ .openStream) (hpark : p.pc ≠ .requeued)
    (hinvalid : invalid.unsubmitted = false)
    (hgo : ∀ c, p.clock ≤ c → Kept p (go { p with clock := c })) : Kept p p' := by
  have hclock : p.clock ≤ p.clock + env.elapsed + env.wait := by omega
  obtain ⟨rfl, -⟩ | ⟨-, -, rfl⟩ | ⟨-, -, -, rfl⟩ | ⟨-, -, -, rfl⟩ := leaseCheck_cases h
  · exact Kept.move (by simp) (by simpa using hclock) (by simp) hopen hpark (by simp)
  · exact Kept.move rfl hclock rfl hopen hpark (by simp [hinvalid])
  · exact Kept.move rfl hclock rfl hopen hpark (by simp [Pc.unsubmitted])
  · exact hgo _ hclock

theorem leaseCheck_wrote {region : Region} {content : String} {invalid : Pc}
    {go : Process → Process}
    (h : leaseCheck cfg env p s region content invalid go = (p', s')) :
    Wrote cfg.book p p' s s' := by
  have hcall : ∀ now, Wrote cfg.book p p' s
      (checkLeaseAndStop cfg.leaseExtensionSeconds now p.current s).2 := fun now =>
    Wrote.call (.checkLeaseAndStop cfg.leaseExtensionSeconds now p.current)
      rfl ⟨rfl, rfl⟩ (by simp [Op.caller]) rfl
  obtain ⟨-, rfl | rfl⟩ | ⟨rfl, -⟩ | ⟨rfl, -⟩ | ⟨rfl, -⟩ := leaseCheck_cases h
  · exact Wrote.nothing rfl
  · exact hcall _
  · exact hcall _
  · exact hcall _
  · exact hcall _

/-- A process keeps its request, its token and the stream it opened. -/
theorem workerStep_kept (h : workerStep cfg env p s = (p', s')) : Kept p p' := by
  have hclock : p.clock ≤ p.clock + env.elapsed + env.wait := by omega
  -- a step past the submission, or out of it
  have hleave : p.pc ≠ .openStream → p.pc ≠ .requeued →
      p'.current = p.current ∧ p.clock ≤ p'.clock ∧ p'.feed = p.feed
        ∧ p'.pc.unsubmitted = false → Kept p p' := by
    rintro hopen hpark ⟨hcurrent, hc, hfeed, hpc⟩
    exact Kept.move hcurrent hc hfeed hopen hpark (by simp [hpc])
  cases hpc : p.pc with
  | begin =>
      simp only [workerStep, hpc] at h
      split_ifs at h
      all_goals
        obtain ⟨rfl, rfl⟩ := h
        exact Kept.move rfl le_rfl rfl (by simp [hpc]) (by simp [hpc])
          (by simp [hpc, Pc.unsubmitted])
  | firstCheck =>
      simp only [workerStep, hpc] at h
      refine leaseCheck_kept h (by simp [hpc]) (by simp [hpc]) rfl fun c hc => ?_
      exact Kept.move rfl hc rfl (by simp [hpc]) (by simp [hpc])
        (by simp [hpc, Pc.unsubmitted])
  | prepare =>
      simp only [workerStep, hpc] at h
      split_ifs at h
      · obtain ⟨rfl, rfl⟩ := h
        exact hleave (by simp [hpc]) (by simp [hpc]) ⟨rfl, le_rfl, rfl, rfl⟩
      · split at h
        all_goals
          obtain ⟨rfl, rfl⟩ := h
          exact Kept.move rfl le_rfl rfl (by simp [hpc]) (by simp [hpc])
            (by simp [hpc, Pc.unsubmitted])
  | requeue =>
      simp only [workerStep, hpc] at h
      split at h
      all_goals
        obtain ⟨rfl, rfl⟩ := h
        exact Kept.move rfl hclock rfl (by simp [hpc]) (by simp [hpc])
          (by simp [hpc, Pc.unsubmitted])
  | secondCheck =>
      simp only [workerStep, hpc] at h
      refine leaseCheck_kept h (by simp [hpc]) (by simp [hpc]) rfl fun c hc => ?_
      exact Kept.move rfl hc rfl (by simp [hpc]) (by simp [hpc])
        (by simp [hpc, Pc.unsubmitted])
  | openStream =>
      simp only [workerStep, hpc] at h
      obtain ⟨rfl, rfl⟩ := h
      exact { current := rfl, clock := le_rfl, feed := fun hne => absurd hpc hne
              opened := fun _ => rfl, unsubmitted := fun hu => by cases hu
              parked := fun hp => by simp [hpc] at hp }
  | next =>
      simp only [workerStep, hpc] at h
      split_ifs at h
      · obtain ⟨rfl, rfl⟩ := h
        exact hleave (by simp [hpc]) (by simp [hpc]) ⟨rfl, le_rfl, rfl, rfl⟩
      · split at h
        · obtain ⟨rfl, rfl⟩ := h
          exact hleave (by simp [hpc]) (by simp [hpc]) ⟨rfl, le_rfl, rfl, rfl⟩
        · obtain ⟨rfl, rfl⟩ := h
          apply hleave (by simp [hpc]) (by simp [hpc])
          unfold Process.raiseProvider
          split
          · exact ⟨rfl, le_rfl, rfl, rfl⟩
          · exact ⟨rfl, le_rfl, rfl, rfl⟩
        · obtain ⟨rfl, rfl⟩ := h
          exact hleave (by simp [hpc]) (by simp [hpc]) ⟨rfl, le_rfl, rfl, rfl⟩
        · obtain ⟨rfl, rfl⟩ := h
          exact hleave (by simp [hpc]) (by simp [hpc]) ⟨rfl, le_rfl, rfl, rfl⟩
  | checkChunk chunk =>
      simp only [workerStep, hpc] at h
      refine leaseCheck_kept h (by simp [hpc]) (by simp [hpc]) rfl fun c hc => ?_
      split
      · exact Kept.move rfl hc rfl (by simp [hpc]) (by simp [hpc])
          (by simp [Process.raise, Pc.unsubmitted])
      · refine Kept.move rfl hc rfl (by simp [hpc]) (by simp [hpc]) ?_
        split <;> simp [Pc.unsubmitted]
  | append chunk =>
      simp only [workerStep, hpc] at h
      split at h
      · obtain ⟨rfl, rfl⟩ := h
        exact hleave (by simp [hpc]) (by simp [hpc]) ⟨rfl, hclock, rfl, rfl⟩
      · obtain ⟨rfl, rfl⟩ := h
        exact hleave (by simp [hpc]) (by simp [hpc]) ⟨rfl, hclock, rfl, rfl⟩
      · obtain ⟨rfl, rfl⟩ := h
        exact { current := rfl, clock := hclock, feed := fun _ => rfl
                opened := fun ho => by simp [hpc] at ho
                unsubmitted := fun hu => by cases hu
                parked := fun hp => by simp [hpc] at hp }
  | stopping point =>
      simp only [workerStep, hpc] at h
      split at h
      · obtain ⟨rfl, rfl⟩ := h
        exact hleave (by simp [hpc]) (by simp [hpc]) (by simpa using hclock)
      all_goals
        obtain ⟨rfl, rfl⟩ := h
        exact hleave (by simp [hpc]) (by simp [hpc]) ⟨rfl, hclock, rfl, rfl⟩
  | releasing region =>
      simp only [workerStep, hpc] at h
      split at h
      · obtain ⟨rfl, rfl⟩ := h
        exact hleave (by simp [hpc]) (by simp [hpc]) ⟨rfl, le_rfl, rfl, rfl⟩
      · split at h
        · obtain ⟨rfl, rfl⟩ := h
          exact hleave (by simp [hpc]) (by simp [hpc]) (by simpa using hclock)
        all_goals
          obtain ⟨rfl, rfl⟩ := h
          exact hleave (by simp [hpc]) (by simp [hpc]) ⟨rfl, hclock, rfl, rfl⟩
  | finalCheck finished =>
      simp only [workerStep, hpc] at h
      refine leaseCheck_kept h (by simp [hpc]) (by simp [hpc]) rfl fun c hc => ?_
      exact Kept.move rfl hc rfl (by simp [hpc]) (by simp [hpc])
        (by simp [Pc.unsubmitted])
  | complete =>
      simp only [workerStep, hpc] at h
      split at h
      · obtain ⟨rfl, rfl⟩ := h
        exact hleave (by simp [hpc]) (by simp [hpc]) (by simpa using hclock)
      all_goals
        obtain ⟨rfl, rfl⟩ := h
        exact hleave (by simp [hpc]) (by simp [hpc]) ⟨rfl, hclock, rfl, rfl⟩
  | capture =>
      simp only [workerStep, hpc] at h
      split at h
      · obtain ⟨rfl, rfl⟩ := h
        exact hleave (by simp [hpc]) (by simp [hpc]) ⟨rfl, le_rfl, rfl, rfl⟩
      · obtain ⟨rfl, rfl⟩ := h
        exact hleave (by simp [hpc]) (by simp [hpc]) ⟨rfl, hclock, rfl, rfl⟩
  | failing code details provider reserved =>
      simp only [workerStep, hpc] at h
      split at h
      · obtain ⟨rfl, rfl⟩ := h
        refine hleave (by simp [hpc]) (by simp [hpc]) ⟨rfl, hclock, rfl, ?_⟩
        show (if reserved = true then Pc.releasing .outside else .ended).unsubmitted = false
        split <;> rfl
      · obtain ⟨rfl, rfl⟩ := h
        exact hleave (by simp [hpc]) (by simp [hpc]) ⟨rfl, hclock, rfl, rfl⟩
  | markingUnknown code provider =>
      simp only [workerStep, hpc] at h
      obtain ⟨rfl, rfl⟩ := h
      exact hleave (by simp [hpc]) (by simp [hpc]) ⟨rfl, hclock, rfl, rfl⟩
  | requeued =>
      simp only [workerStep, hpc] at h
      obtain ⟨rfl, rfl⟩ := h
      exact { current := rfl, clock := le_rfl, feed := fun _ => rfl
              opened := fun ho => by simp [hpc] at ho
              unsubmitted := fun _ => by simp [hpc, Pc.unsubmitted]
              parked := fun hp => hp }
  | ended =>
      simp only [workerStep, hpc] at h
      obtain ⟨rfl, rfl⟩ := h
      exact hleave (by simp [hpc]) (by simp [hpc]) ⟨rfl, le_rfl, rfl, by rw [hpc]; rfl⟩

/-- A requeue that does not succeed writes nothing. -/
theorem requeueClaimed_false {now : Nat} {e : Execution}
    (h : (requeueClaimed now e s).1 = false) : (requeueClaimed now e s).2 = s := by
  unfold requeueClaimed at h ⊢
  split at h
  · rfl
  · cases h

/-- A requeue touches its own row only. -/
theorem requeueClaimed_other (now : Nat) {e : Execution} (hne : id ≠ e.requestDbId)
    (s : Store) : (requeueClaimed now e s).2.requests.get id = s.requests.get id := by
  unfold requeueClaimed
  split
  · rfl
  · exact Table.get_modify_ne _ hne.symm _

/-- A repository call as the worker sees it is a call of the store. -/
theorem attempt_wrote {β : Type} {db : DbOutcome} {call : Except ChatError (β × Store)}
    {b : Option β} (op : Op) (h : attempt db s call = (b, s'))
    (hop : ∀ x s₁, call = .ok (x, s₁) → op.perform cfg.book s = .ok s₁)
    (howner : op.caller.token = p.current.leaseToken)
    (hkeeps : op.caller.requeues = false ∧ op.caller.settles = false)
    (hends : op.caller.outcomes.contains .succeeded = true → p.pc = .complete) :
    Wrote cfg.book p p' s s' := by
  obtain ⟨-, rfl⟩ | ⟨x, hx, -⟩ := attempt_cases h
  · exact Wrote.nothing rfl
  · exact Wrote.call op howner hkeeps hends (step_of_ok (hop x s' hx)).symm

/-- So is a settlement, of the billing service. -/
theorem attempt_settled {β : Type} {db : DbOutcome} {call : Billing.Call}
    {x : Except Billing.BillingError (β × Billing.Db)} {b : Option Unit}
    (h : attempt db s ((x.map fun y => ((), { s with billing := y.2 })).mapError
      ChatError.billing) = (b, s'))
    (hcall : call.perform s.billing = x.map fun y => y.2)
    (hsettling : Settling cfg.book p s call) : Wrote cfg.book p p' s s' := by
  obtain ⟨-, rfl⟩ | ⟨u, hu, -⟩ := attempt_cases h
  · exact Wrote.nothing rfl
  · refine Wrote.settle call hsettling ?_
    cases x with
    | error e => cases hu
    | ok y =>
        obtain rfl : { s with billing := y.2 } = s' := by
          simpa [Except.map, Except.mapError] using hu
        simp only [step, Op.perform, Billing.step, hcall]
        rfl

theorem workerStep_wrote (h : workerStep cfg env p s = (p', s')) :
    Wrote cfg.book p p' s s' := by
  cases hpc : p.pc with
  | firstCheck =>
      simp only [workerStep, hpc] at h
      exact leaseCheck_wrote h
  | secondCheck =>
      simp only [workerStep, hpc] at h
      exact leaseCheck_wrote h
  | checkChunk chunk =>
      simp only [workerStep, hpc] at h
      exact leaseCheck_wrote h
  | finalCheck finished =>
      simp only [workerStep, hpc] at h
      exact leaseCheck_wrote h
  | begin =>
      simp only [workerStep, hpc] at h
      split_ifs at h
      all_goals
        obtain ⟨rfl, rfl⟩ := h
        exact Wrote.nothing rfl
  | prepare =>
      simp only [workerStep, hpc] at h
      split_ifs at h
      · obtain ⟨rfl, rfl⟩ := h
        exact Wrote.nothing rfl
      · split at h
        all_goals
          obtain ⟨rfl, rfl⟩ := h
          exact Wrote.nothing rfl
  | requeue =>
      simp only [workerStep, hpc] at h
      split at h
      · obtain ⟨rfl, rfl⟩ := h
        exact Wrote.nothing rfl
      · obtain ⟨rfl, rfl⟩ := h
        cases hre : (requeueClaimed (p.clock + env.elapsed) p.current s).1 with
        | true => exact Wrote.requeue _ hpc rfl rfl
        | false => exact Wrote.nothing (requeueClaimed_false hre)
  | openStream =>
      simp only [workerStep, hpc] at h
      obtain ⟨rfl, rfl⟩ := h
      exact Wrote.nothing rfl
  | next =>
      simp only [workerStep, hpc] at h
      split_ifs at h
      · obtain ⟨rfl, rfl⟩ := h
        exact Wrote.nothing rfl
      · split at h
        all_goals
          obtain ⟨rfl, rfl⟩ := h
          exact Wrote.nothing rfl
  | append chunk =>
      simp only [workerStep, hpc] at h
      let op : Op := .appendDelta cfg.leaseExtensionSeconds (p.clock + env.elapsed)
        (p.clock + env.elapsed + env.wait) p.current (p.current.lastEventSequence + 1)
        chunk.delta p.providerRequestId
      have hop : op.caller = ⟨p.current.leaseToken, [], false, false⟩ := rfl
      split at h
      all_goals
        next hb =>
          obtain ⟨rfl, rfl⟩ := h
          exact attempt_wrote op hb
            (fun x s₂ hx => by simp only [op, Op.perform, hx]; rfl)
            rfl ⟨rfl, rfl⟩ (by simp [hop])
  | stopping point =>
      simp only [workerStep, hpc] at h
      let op : Op := .markStopped (p.clock + env.elapsed)
        (p.clock + env.elapsed + env.wait) p.current (p.current.lastEventSequence + 1)
        point.content
      have hop : op.caller = ⟨p.current.leaseToken, [.stopped], false, false⟩ := rfl
      split at h
      all_goals
        next hb =>
          obtain ⟨rfl, rfl⟩ := h
          exact attempt_wrote op hb
            (fun x s₂ hx => by simp only [op, Op.perform, hx]; rfl)
            rfl ⟨rfl, rfl⟩ (by simp [hop])
  | releasing region =>
      simp only [workerStep, hpc] at h
      split at h
      · obtain ⟨rfl, rfl⟩ := h
        exact Wrote.nothing rfl
      · next reservationId hres =>
          split at h
          all_goals
            next hb =>
              obtain ⟨rfl, rfl⟩ := h
              exact attempt_settled hb rfl
                (Settling.release _ reservationId ⟨region, hpc⟩ hres)
  | complete =>
      simp only [workerStep, hpc] at h
      let op : Op := .markCompleted (p.clock + env.elapsed)
        (p.clock + env.elapsed + env.wait) p.current (p.current.lastEventSequence + 1)
        p.content p.providerRequestId (p.usage.getD {})
      split at h
      all_goals
        next hb =>
          obtain ⟨rfl, rfl⟩ := h
          exact attempt_wrote op hb
            (fun x s₂ hx => by simp only [op, Op.perform, hx]; rfl)
            rfl ⟨rfl, rfl⟩ fun _ => hpc
  | capture =>
      simp only [workerStep, hpc] at h
      split at h
      · obtain ⟨rfl, rfl⟩ := h
        exact Wrote.nothing rfl
      · next reservationId hres =>
          obtain ⟨rfl, rfl⟩ := h
          exact attempt_settled rfl rfl (Settling.capture _ reservationId hpc hres)
  | failing code details provider reserved =>
      simp only [workerStep, hpc] at h
      let op : Op := .markFailed (p.clock + env.elapsed)
        (p.clock + env.elapsed + env.wait) p.current (p.current.lastEventSequence + 1)
        (safeErrorCode code "CHAT_PROVIDER_ERROR") details provider
      have hop : op.caller = ⟨p.current.leaseToken, [.failed], false, false⟩ := rfl
      split at h
      all_goals
        next hb =>
          obtain ⟨rfl, rfl⟩ := h
          exact attempt_wrote op hb
            (fun x s₂ hx => by simp only [op, Op.perform, hx]; rfl)
            rfl ⟨rfl, rfl⟩ (by simp [hop])
  | markingUnknown code provider =>
      simp only [workerStep, hpc] at h
      let op : Op := .markSubmittedUnknown (p.clock + env.elapsed)
        (p.clock + env.elapsed + env.wait) p.current provider
        (safeErrorCode code "CHAT_SUBMISSION_UNKNOWN")
      have hop : op.caller = ⟨p.current.leaseToken, [.submittedUnknown], false, false⟩ := rfl
      obtain ⟨rfl, rfl⟩ := h
      exact attempt_wrote op rfl
        (fun x s₂ hx => by simp only [op, Op.perform, hx]; rfl)
        rfl ⟨rfl, rfl⟩ (by simp [hop])
  | requeued =>
      simp only [workerStep, hpc] at h
      obtain ⟨rfl, rfl⟩ := h
      exact Wrote.nothing rfl
  | ended =>
      simp only [workerStep, hpc] at h
      obtain ⟨rfl, rfl⟩ := h
      exact Wrote.nothing rfl

-- ================================================================ claims

/-- What a successful claim found and left. -/
structure Claimed (s s' : Store) (e : Execution) (r r' : InferenceRequest) : Prop where
  requests : Table.Replaced s.requests s'.requests e.requestDbId r r'
  queued : r.status = .queued
  running : r'.status = .running
  token : e.leaseToken = some s.nextUuid ∧ r'.leaseToken = some s.nextUuid
  sequence : e.lastEventSequence = r.lastEventSequence
    ∧ r'.lastEventSequence = r.lastEventSequence
  provider : e.providerRequestId = r.providerRequestId
    ∧ r'.providerRequestId = r.providerRequestId
  tenant : e.tenantId = r.tenantId ∧ e.requestId = r.requestId
  place : e.messageId = r.messageId ∧ e.conversationId = r.conversationId
  reservation : e.reservationId = r.billingReservationId
  same : SameRequest r r'
  events : s'.events = s.events
  billing : s'.billing = s.billing
  uuid : s'.nextUuid = s.nextUuid + 1

theorem claimQueued_claimed {now : Nat} {catalog : Catalog.CatalogRows}
    {locked : Nat → Bool} {workerId : String} {leaseSeconds : Nat}
    {tenantId requestId : Option Nat} {e : Execution}
    (h : claimQueued now catalog locked workerId leaseSeconds tenantId requestId s
      = .ok (some e, s')) : ∃ r r', Claimed s s' e r r' := by
  simp only [claimQueued, bind_eq_ok] at h
  obtain ⟨-, -, -, -, h⟩ := h
  split at h
  · rw [pure_eq_ok] at h
    cases h
  · next id r hcand =>
      obtain ⟨hget, hq⟩ := claimCandidate_some hcand
      split at h
      · rw [pure_eq_ok] at h
        cases h
      · rw [pure_eq_ok] at h
        obtain ⟨he, rfl⟩ := Prod.mk.inj h
        obtain rfl := Option.some.inj he
        exact ⟨r, _,
          { requests := Table.replaced_modify hget _, queued := hq, running := rfl
            token := ⟨rfl, rfl⟩, sequence := ⟨rfl, rfl⟩, provider := ⟨rfl, rfl⟩
            tenant := ⟨rfl, rfl⟩, place := ⟨rfl, rfl⟩, reservation := rfl
            same := ⟨rfl, rfl, rfl, rfl, rfl, rfl, rfl⟩, events := rfl, billing := rfl
            uuid := rfl }⟩

-- ============================================================= one act

variable {w : World}

/-- No API call presents a token, requeues, settles or completes. -/
theorem Op.caller_of_isApi {op : Op} (h : op.isApi = true) :
    op.caller.token = none ∧ op.caller.requeues = false ∧ op.caller.settles = false
      ∧ op.caller.outcomes.contains .succeeded = false := by
  cases op <;> simp_all [Op.isApi, Op.caller, sweeper]

/-- A step of a process as an effect of its caller. -/
theorem Wrote.effects {book : Catalog.PriceBook} (hw : Wrote book p p' s s')
    (hinv : ChatInv s) :
    ∃ who : Caller, Effects who s s'
      ∧ (who.token = p.current.leaseToken ∨ who.token = none)
      ∧ (who.requeues = true → p.pc = .requeue ∧ p'.pc = .requeued)
      ∧ (who.outcomes.contains .succeeded = true → p.pc = .complete) := by
  cases hw with
  | nothing h =>
      subst h
      exact ⟨⟨none, [], false, false⟩, Effects.one (Effect.refl _), Or.inr rfl, by simp, by simp⟩
  | call op howner hkeeps hends h =>
      subst h
      exact ⟨op.caller, step_effects book hinv op, Or.inl howner, by simp [hkeeps.1],
        hends⟩
  | settle call hcall h =>
      subst h
      exact ⟨_, step_effects book hinv (.billing call), Or.inr rfl, by simp [Op.caller],
        by simp [Op.caller]⟩
  | requeue now hpc hparked h =>
      subst h
      exact ⟨_, step_effects book hinv _, Or.inl rfl, fun _ => ⟨hpc, hparked⟩,
        by simp [Op.caller]⟩

/-- What an act does: it changes the store for a party that requeues
nothing, settles a reservation, starts a process, or lets one step. -/
inductive Acted (cfg : Config) (w : World) : Act → World → Prop
  | outside (act : Act) (who : Caller) (s' : Store) (heff : Effects who w.store s')
      (htoken : who.token = none)
      (hkeeps : who.requeues = false ∧ who.settles = false)
      (hends : who.outcomes.contains .succeeded = false) :
      Acted cfg w act { w with store := s' }
  | settled (act : Act) (now tenantId reservationId : Nat) (capture : Bool)
      (s' : Store) (hs : s' = step cfg.book w.store
        (.billing (settleCall cfg.book w.store now tenantId reservationId capture))) :
      Acted cfg w act { w with store := s' }
  | started (act : Act) (now : Nat) (e : Execution) (r r' : InferenceRequest)
      (s' : Store) (hclaimed : Claimed w.store s' e r r')
      (heff : Effects ⟨none, [], false, false⟩ w.store s') :
      Acted cfg w act
        { w with store := s', processes := w.processes.insert (.start now e) }
  | worked (pid : Nat) (env : Env) (p p' : Process) (s' : Store)
      (hp : w.processes.get pid = some p)
      (hstep : workerStep cfg env p w.store = (p', s')) :
      Acted cfg w (.work pid env)
        { store := s', processes := w.processes.modify pid fun _ => p'
          streams := if p.pc = .openStream then w.streams ++ [p.current.requestDbId]
            else w.streams }

theorem worldStep_acted (cfg : Config) (hinv : ChatInv w.store) (act : Act) :
    Acted cfg w act (worldStep cfg w act) := by
  have hnothing : Acted cfg w act w :=
    Acted.outside act ⟨none, [], false, false⟩ w.store (Effects.one (Effect.refl _))
      rfl ⟨rfl, rfl⟩ rfl
  cases act with
  | api op hop =>
      obtain ⟨htoken, hkeeps, hsettles, hends⟩ := Op.caller_of_isApi hop
      exact Acted.outside _ op.caller _ (step_effects cfg.book hinv op) htoken
        ⟨hkeeps, hsettles⟩ hends
  | claim now catalog locked workerId leaseSeconds tenantId requestId =>
      unfold worldStep
      simp only
      split
      · next e store hclaim =>
          obtain ⟨r, r', hc⟩ := claimQueued_claimed hclaim
          exact Acted.started _ now e r r' store hc (Effects.one (claimQueued_effect hclaim))
      · next store hclaim =>
          exact Acted.outside _ ⟨none, [], false, false⟩ _
            (Effects.one (claimQueued_effect hclaim)) rfl ⟨rfl, rfl⟩ rfl
      · exact hnothing
  | work pid env =>
      unfold worldStep
      simp only
      split
      · exact hnothing
      · next p hp => exact Acted.worked pid env p _ _ hp rfl
  | settle now tenantId reservationId capture =>
      exact Acted.settled _ now tenantId reservationId capture _ rfl

/-- Effects keep the invariant of the store. -/
theorem ChatInv.effects (hinv : ChatInv s) (heff : Effects who s s') : ChatInv s' :=
  (heff.carry (P := fun _ => True) hinv (fun _ _ _ => trivial) trivial).1

end Mosaic.Chat
