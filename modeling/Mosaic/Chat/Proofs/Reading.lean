/-
One process and its row: what the worker believes about the request is
true for as long as it holds the lease.

# The invariant

- `placed`: the execution record names its own row, whatever happens to
  the row.
- `synced`: while the process is on its way to a completion, the row it
  holds carries the sequence number and provider id the process expects,
  so none of its writes is refused for them.
- `doomed`: a process that left the stream early (`finalCheck false`)
  has lost the lease, let it expire or been stopped. Its clock does not
  run backwards and nobody else extends its lease, so its final check
  cannot find the lease valid and the request running: this is what
  keeps a truncated stream from being completed.
- `reading`: what the process has taken off the stream, counted from
  what the provider sent.
-/
import Mosaic.Chat.Proofs.Fencing
import Mosaic.Chat.Proofs.Settlement

namespace Mosaic.Chat

open Lib Providers

variable {cfg : Config} {env : Env} {who : Caller} {s s' : Store} {p p' : Process}
  {id t : Nat} {r r' : InferenceRequest} {e : Execution}

-- =========================================================== undisturbed

/-- What a row can go through while somebody else acts: a stop. -/
structure Undisturbed (r r' : InferenceRequest) : Prop where
  token : r'.leaseToken = r.leaseToken
  counter : r'.lastEventSequence = r.lastEventSequence
  provider : r'.providerRequestId = r.providerRequestId
  lease : r'.leaseExpiresAt = r.leaseExpiresAt
  status : r'.status = r.status ∨ r'.status = .stopRequested

theorem Undisturbed.refl (r : InferenceRequest) : Undisturbed r r :=
  ⟨rfl, rfl, rfl, rfl, Or.inl rfl⟩

theorem Undisturbed.trans {r₁ r₂ r₃ : InferenceRequest} (h : Undisturbed r₁ r₂)
    (h' : Undisturbed r₂ r₃) : Undisturbed r₁ r₃ := by
  refine ⟨h'.token.trans h.token, h'.counter.trans h.counter,
    h'.provider.trans h.provider, h'.lease.trans h.lease, ?_⟩
  obtain hst | hst := h'.status
  · rw [hst]
    exact h.status
  · exact Or.inr hst

/-- A row that carries the token `t` after somebody else's effect carried
it before. -/
theorem Effect.undisturbed (heff : Effect who s s') (hwho : who.token ≠ some t)
    (ht : t < s.nextUuid) (hr' : s'.requests.get id = some r')
    (hown : r'.leaseToken = some t) :
    ∃ r, s.requests.get id = some r ∧ Undisturbed r r' := by
  have hframe : ∀ {j y y'}, Table.Replaced s.requests s'.requests j y y' →
      (y'.leaseToken = some t → Undisturbed y y') →
      ∃ r, s.requests.get id = some r ∧ Undisturbed r r' := by
    intro j y y' hrep hnew
    obtain ⟨rfl, rfl⟩ | ⟨-, hr⟩ := hrep.cases hr'
    · exact ⟨y, hrep.old, hnew hown⟩
    · exact ⟨r', hr, Undisturbed.refl r'⟩
  cases heff with
  | quiet h => exact ⟨r', h.requests ▸ hr', Undisturbed.refl r'⟩
  | opened c h => exact ⟨r', h.requests ▸ hr', Undisturbed.refl r'⟩
  | accepted cid mid c c' x m e o h =>
      rw [h.requests] at hr'
      obtain ⟨-, rfl⟩ | hr := Table.get_insert_cases hr'
      · simp [h.unleased] at hown
      · exact ⟨r', hr, Undisturbed.refl r'⟩
  | moved j y y' h hmove =>
      refine hframe h.requests fun hy' => ?_
      cases hmove with
      | claimed _ _ htok =>
          rw [htok, Option.some.injEq] at hy'
          omega
      | requeued _ _ _ _ htok => simp [htok] at hy'
      | beat _ hbeat htok =>
          rw [htok, hbeat.2] at hy'
          exact absurd hy' hwho
      | stopRequested _ hnew htok hlease =>
          exact ⟨htok, h.counter, h.provider, hlease, Or.inr hnew⟩
  | delta j y y' m m' e text h =>
      refine hframe h.requests fun hy' => ?_
      rw [h.token, h.own.2] at hy'
      exact absurd hy' hwho
  | ended j y y' c c' m m' e h =>
      refine hframe h.requests fun hy' => ?_
      simp [h.token] at hy'

theorem Effects.undisturbed (heff : Effects who s s') (hwho : who.token ≠ some t)
    (ht : t < s.nextUuid) (hr' : s'.requests.get id = some r')
    (hown : r'.leaseToken = some t) :
    ∃ r, s.requests.get id = some r ∧ Undisturbed r r' := by
  cases heff with
  | one heff => exact heff.undisturbed hwho ht hr' hown
  | sweep _ hsweep =>
      induction hsweep generalizing r' with
      | refl => exact ⟨r', hr', Undisturbed.refl r'⟩
      | tail hsweep hswept ih =>
          have hlt := ht.trans_le (Effects.sweep rfl hsweep).uuid_le
          obtain ⟨r₁, hr₁, h₁⟩ :=
            hswept.effect.undisturbed (t := t) (by simp [sweeper]) hlt hr' hown
          obtain ⟨r, hr, h⟩ := ih hr₁ (h₁.token.symm.trans hown)
          exact ⟨r, hr, h.trans h₁⟩

theorem Effects.same_request (heff : Effects who s s')
    (hr : s.requests.get id = some r) :
    ∃ r', s'.requests.get id = some r' ∧ SameRequest r r' := by
  cases heff with
  | one heff => exact heff.same_request hr
  | sweep _ hsweep =>
      induction hsweep with
      | refl => exact ⟨r, hr, ⟨rfl, rfl, rfl, rfl, rfl, rfl, rfl⟩⟩
      | tail _ hswept ih =>
          obtain ⟨r₁, hr₁, h₁⟩ := ih
          obtain ⟨r₂, hr₂, h₂⟩ := hswept.effect.same_request hr₁
          exact ⟨r₂, hr₂, ⟨h₂.tenantId.trans h₁.tenantId, h₂.requestId.trans h₁.requestId,
            h₂.conversationId.trans h₁.conversationId, h₂.messageId.trans h₁.messageId,
            h₂.reservation.trans h₁.reservation, h₂.price.trans h₁.price,
            h₂.actor.trans h₁.actor⟩⟩

-- ============================================================ lease check

/-- What the heartbeat found: the row it holds, unexpired, or no such
row. -/
theorem checkLeaseAndStop_valid {ext now : Nat}
    (h : (checkLeaseAndStop ext now e s).1.leaseValid = true) :
    ∃ r r', lockedRequest s e = some r
      ∧ runningStatuses.contains r.status = true
      ∧ (∃ t, r.leaseExpiresAt = some t ∧ now < t)
      ∧ (checkLeaseAndStop ext now e s).1.stopRequested = (r.status == .stopRequested)
      ∧ Table.Replaced s.requests (checkLeaseAndStop ext now e s).2.requests
          e.requestDbId r r'
      ∧ r'.lastEventSequence = r.lastEventSequence
      ∧ r'.providerRequestId = r.providerRequestId := by
  cases hf : (lockedRequest s e).filter fun r => runningStatuses.contains r.status
      && r.leaseExpiresAt.any fun t => now < t with
  | none =>
      simp only [checkLeaseAndStop, hf] at h
      cases h
  | some r =>
      obtain ⟨hlock, hp⟩ := Option.filter_eq_some_iff.mp hf
      simp only [Bool.and_eq_true, Option.any_eq_true, decide_eq_true_eq] at hp
      simp only [checkLeaseAndStop, hf]
      exact ⟨r, _, hlock, hp.1, hp.2, rfl,
        Table.replaced_modify (lockedRequest_some hlock).1 _, rfl, rfl⟩

theorem checkLeaseAndStop_invalid {ext now : Nat}
    (h : (checkLeaseAndStop ext now e s).1.leaseValid = false) :
    (checkLeaseAndStop ext now e s).2 = s
      ∧ ∀ r, lockedRequest s e = some r → runningStatuses.contains r.status = true →
        ∀ t, r.leaseExpiresAt = some t → t ≤ now := by
  cases hf : (lockedRequest s e).filter fun r => runningStatuses.contains r.status
      && r.leaseExpiresAt.any fun t => now < t with
  | some r =>
      simp only [checkLeaseAndStop, hf] at h
      cases h
  | none =>
      refine ⟨by simp only [checkLeaseAndStop, hf], fun r hr hst t ht => ?_⟩
      rw [Option.filter_eq_none_iff] at hf
      by_contra hlt
      exact hf r hr (by rw [hst, ht]; simpa using hlt)

-- ============================================================= the parts

/-- The row the process holds. -/
def Holds (s : Store) (p : Process) (r : InferenceRequest) : Prop :=
  s.requests.get p.current.requestDbId = some r ∧ r.leaseToken = p.current.leaseToken

/-- The execution record describes its row. -/
structure Placed (s : Store) (p : Process) (r : InferenceRequest) : Prop where
  row : s.requests.get p.current.requestDbId = some r
  tenantId : r.tenantId = p.current.tenantId
  requestId : r.requestId = p.current.requestId
  messageId : r.messageId = p.current.messageId
  conversationId : r.conversationId = p.current.conversationId
  reservation : r.billingReservationId = p.current.reservationId

def Synced (s : Store) (p : Process) : Prop :=
  ∀ r, Holds s p r → r.lastEventSequence = p.current.lastEventSequence
    ∧ (r.providerRequestId = none ∨ r.providerRequestId = p.providerRequestId)

def Doomed (s : Store) (p : Process) : Prop :=
  ∀ r, Holds s p r → r.status = .running →
    ∀ t, r.leaseExpiresAt = some t → t ≤ p.clock

/-- On the way to a completion. -/
def Pc.inSync : Pc → Bool
  | .begin => true
  | .firstCheck => true
  | .prepare => true
  | .requeue => true
  | .secondCheck => true
  | .openStream => true
  | .next => true
  | .checkChunk _ => true
  | .append _ => true
  | .finalCheck finished => finished
  | .complete => true
  | _ => false

def chunkText (chunks : List TextStreamChunk) : String :=
  String.join (chunks.map (·.delta))

/-- The usage the worker remembers: the last one it was told. -/
def chunkUsage (chunks : List TextStreamChunk) : Option TokenUsage :=
  chunks.foldl (fun u c => c.usage <|> u) none

/-- The stream of the process is `seen`, then `left`. -/
def Taken (cfg : Config) (p : Process) (seen : List TextStreamChunk)
    (left : List StreamItem) : Prop :=
  ∃ feed, p.feed = some feed
    ∧ streamItems cfg.decode p.current.deployment.providerModelId feed
        = seen.map .chunk ++ left

/-- Everything was taken, and the process remembers it. -/
def TookAll (cfg : Config) (p : Process) : Prop :=
  ∃ seen, Taken cfg p seen [] ∧ p.content = chunkText seen ∧ p.usage = chunkUsage seen

/-- What the process remembers, by where it stands. -/
def Remembers (cfg : Config) (p : Process) : Prop :=
  match p.pc with
  | .next => ∃ seen, Taken cfg p seen p.rest
      ∧ p.content = chunkText seen ∧ p.usage = chunkUsage seen
  | .checkChunk c => ∃ seen, Taken cfg p seen (.chunk c :: p.rest)
      ∧ p.content = chunkText seen ∧ p.usage = chunkUsage seen
  | .append c => ∃ seen, Taken cfg p (seen ++ [c]) p.rest
      ∧ p.content = chunkText seen ∧ p.usage = chunkUsage (seen ++ [c])
  | .finalCheck true => TookAll cfg p
  | .complete => TookAll cfg p
  | .capture => TookAll cfg p
  | pc => pc.unsubmitted = true → p.content = "" ∧ p.usage = none

structure ReadInv (cfg : Config) (s : Store) (p : Process) : Prop where
  placed : ∃ r, Placed s p r
  synced : p.pc.inSync = true → Synced s p
  doomed : p.pc = .finalCheck false → Doomed s p
  remembers : Remembers cfg p

theorem chunkText_snoc (seen : List TextStreamChunk) (c : TextStreamChunk) :
    chunkText (seen ++ [c]) = chunkText seen ++ c.delta := by
  simp [chunkText, String.join, List.foldl_append]

theorem chunkUsage_snoc (seen : List TextStreamChunk) (c : TextStreamChunk) :
    chunkUsage (seen ++ [c]) = (c.usage <|> chunkUsage seen) := by
  simp [chunkUsage, List.foldl_append]

/-- It is the last usage among the chunks that carry one. -/
theorem chunkUsage_eq_getLast (chunks : List TextStreamChunk) :
    chunkUsage chunks = (chunks.filterMap (·.usage)).getLast? := by
  induction chunks using List.reverseRecOn with
  | nil => rfl
  | append_singleton cs c ih =>
      rw [chunkUsage_snoc, ih, List.filterMap_append]
      cases hc : c.usage with
      | none => simp [hc]
      | some u => simp [hc]

-- ============================================================== somebody

/-- What somebody else does leaves the process right about its row. -/
theorem ReadInv.undisturbed (h : ReadInv cfg s p) (heff : Effects who s s')
    (hp : p.current.leaseToken = some t) (ht : t < s.nextUuid)
    (hwho : who.token ≠ some t) : ReadInv cfg s' p := by
  have hheld : ∀ r', Holds s' p r' → ∃ r, Holds s p r ∧ Undisturbed r r' := by
    rintro r' ⟨hr', hown⟩
    obtain ⟨r, hr, hund⟩ := heff.undisturbed hwho ht hr' (hown.trans hp)
    exact ⟨r, ⟨hr, hund.token.symm.trans hown⟩, hund⟩
  refine { placed := ?_, synced := ?_, doomed := ?_, remembers := h.remembers }
  · obtain ⟨r, hr⟩ := h.placed
    obtain ⟨r', hr', hsame⟩ := heff.same_request hr.row
    exact ⟨r',
      { row := hr', tenantId := hsame.tenantId.trans hr.tenantId
        requestId := hsame.requestId.trans hr.requestId
        messageId := hsame.messageId.trans hr.messageId
        conversationId := hsame.conversationId.trans hr.conversationId
        reservation := hsame.reservation.trans hr.reservation }⟩
  · intro hpc r' hr'
    obtain ⟨r, hr, hund⟩ := hheld r' hr'
    rw [hund.counter, hund.provider]
    exact h.synced hpc r hr
  · intro hpc r' hr' hrun t ht
    obtain ⟨r, hr, hund⟩ := hheld r' hr'
    refine h.doomed hpc r hr ?_ t (hund.lease.symm.trans ht)
    obtain hst | hst := hund.status
    · exact hst.symm.trans hrun
    · simp [hst] at hrun

-- ============================================================ its writes

/-- Holding the row is what the fence checks. -/
theorem Placed.locked (hplaced : Placed s p r) (hr : Holds s p r)
    (htok : p.current.leaseToken = some t) : lockedRequest s p.current = some r := by
  rw [lockedRequest, Option.filter_eq_some_iff]
  refine ⟨hr.1, ?_⟩
  simp [hplaced.tenantId, hplaced.requestId, htok, hr.2]

theorem holds_of_locked (h : lockedRequest s p.current = some r) : Holds s p r := by
  obtain ⟨hget, -, htok⟩ := lockedRequest_some h
  exact ⟨hget, htok⟩

theorem Placed.eq (h : Placed s p r) (hr' : Holds s p r') : r' = r :=
  Option.some.inj (hr'.1.symm.trans h.row)

/-- `Synced` looks at two fields of the process. -/
theorem Synced.congr {q : Process} (h : Synced s p) (hcurrent : q.current = p.current)
    (hprovider : q.providerRequestId = p.providerRequestId) : Synced s q := by
  intro r hr
  rw [Holds, hcurrent] at hr
  rw [hcurrent, hprovider]
  exact h r hr

/-- A heartbeat moves neither the counter nor the provider id. -/
theorem Synced.check (h : Synced s p) (ext now : Nat) :
    Synced (checkLeaseAndStop ext now p.current s).2 p := by
  cases hvalid : (checkLeaseAndStop ext now p.current s).1.leaseValid with
  | false =>
      rw [(checkLeaseAndStop_invalid hvalid).1]
      exact h
  | true =>
      obtain ⟨r, r', hlock, -, -, -, hrep, hseq, hprov⟩ := checkLeaseAndStop_valid hvalid
      rintro x ⟨hx, -⟩
      obtain rfl := Option.some.inj (hrep.new.symm.trans hx)
      rw [hseq, hprov]
      exact h r (holds_of_locked hlock)

theorem orElse_none_cases (x : Option String) : orElse x none = none ∨ orElse x none = x := by
  cases x with
  | none => exact Or.inl rfl
  | some text =>
      by_cases htext : text = ""
      · exact Or.inl (if_pos htext)
      · exact Or.inr (if_neg htext)

theorem orElse_self (x : Option String) : orElse x x = x := by
  cases x with
  | none => rfl
  | some text =>
      by_cases htext : text = ""
      · exact if_pos htext
      · exact if_neg htext

theorem appendDelta_some {ext now lockedNow : Nat} {seq n : Int} {delta : String}
    {provider : Option String}
    (h : appendDelta ext now lockedNow e seq delta provider s = .ok (some n, s')) :
    n = seq ∧ ∃ r r', Table.Replaced s.requests s'.requests e.requestDbId r r'
      ∧ r.leaseToken = e.leaseToken
      ∧ r'.lastEventSequence = seq
      ∧ r'.providerRequestId = orElse provider r.providerRequestId := by
  simp only [appendDelta, bind_eq_ok] at h
  obtain ⟨-, -, h⟩ := h
  split at h
  · rw [pure_eq_ok] at h
    cases h
  · next r hfilter =>
      have hw := writable_of_filter hfilter
      split at h
      · rw [pure_eq_ok] at h
        cases h
      · simp only [bind_eq_ok, pure_eq_ok, Prod.mk.injEq, Option.some.injEq] at h
        obtain ⟨-, -, rfl, rfl⟩ := h
        exact ⟨rfl, r, _, Table.replaced_modify hw.get _, hw.own.2, rfl, rfl⟩

/-- A process that holds a running, unexpired row is not refused. -/
theorem appendDelta_refused {ext now lockedNow : Nat} {delta : String}
    (hchat : ChatInv s) (hplaced : Placed s p r) (hr : Holds s p r)
    (htok : p.current.leaseToken = some t) (hsync : Synced s p)
    (hrun : r.status = .running) {expiry : Nat}
    (hlease : r.leaseExpiresAt = some expiry) (hlt : lockedNow < expiry) :
    appendDelta ext now lockedNow p.current (p.current.lastEventSequence + 1) delta
      p.providerRequestId s ≠ .ok (none, s') := by
  obtain ⟨hseq, hprov⟩ := hsync r hr
  obtain ⟨m, hm, hlink, hstream, hten, hconv, -⟩ :=
    hchat.link.linked _ r hr.1 (by rw [hrun]; rfl)
  have hwritable : (lockedWritableRequest s lockedNow p.current
      (p.current.lastEventSequence + 1) [.running]).filter
        (fun r => providerIdIsCoherent r p.providerRequestId) = some r := by
    rw [Option.filter_eq_some_iff, lockedWritableRequest, Option.filter_eq_some_iff]
    refine ⟨⟨hplaced.locked hr htok, ?_⟩, ?_⟩
    · simp [hrun, hseq, hlease, hlt]
    · obtain hnone | hsome := hprov
      · simp [providerIdIsCoherent, hnone]
      · simp [providerIdIsCoherent, hsome]
  have hmessage : (lockedMessage s p.current).filter (fun m => m.status == .streaming)
      = some m := by
    rw [Option.filter_eq_some_iff, lockedMessage, Option.filter_eq_some_iff]
    rw [hplaced.messageId] at hm
    refine ⟨⟨hm, ?_⟩, by simp [hstream]⟩
    simp [hten, hplaced.tenantId, hconv, hplaced.conversationId, hlink]
  intro h
  simp only [appendDelta, hwritable, hmessage, bind_eq_ok, pure_eq_ok] at h
  obtain ⟨-, -, -, -, h⟩ := h
  cases h

theorem appendDelta_none {ext now lockedNow : Nat} {seq : Int} {delta : String}
    {provider : Option String}
    (h : appendDelta ext now lockedNow e seq delta provider s = .ok (none, s')) :
    s' = s := by
  simp only [appendDelta, bind_eq_ok] at h
  obtain ⟨-, -, h⟩ := h
  split at h
  · rw [pure_eq_ok] at h
    exact (Prod.mk.inj h).2.symm
  · split at h
    · rw [pure_eq_ok] at h
      exact (Prod.mk.inj h).2.symm
    · simp only [bind_eq_ok, pure_eq_ok] at h
      obtain ⟨-, -, h⟩ := h
      cases h

-- =============================================================== its own

/-- The part of the invariant a step has to establish anew. -/
structure Onward (cfg : Config) (s : Store) (p : Process) : Prop where
  synced : p.pc.inSync = true → Synced s p
  doomed : p.pc = .finalCheck false → Doomed s p
  remembers : Remembers cfg p

/-- Winding down: nothing is expected of the row any more. -/
def Pc.closing : Pc → Bool
  | .stopping _ => true
  | .releasing _ => true
  | .failing _ _ _ _ => true
  | .markingUnknown _ _ => true
  | .ended => true
  | _ => false

theorem Onward.closing (h : p.pc.closing = true) : Onward cfg s p := by
  refine ⟨?_, ?_, ?_⟩
  · intro hsync
    cases hpc : p.pc <;> simp_all [Pc.closing, Pc.inSync]
  · intro hpc
    simp [hpc, Pc.closing] at h
  · unfold Remembers
    split <;> simp_all [Pc.closing]
    intro hun
    cases hpc : p.pc <;> simp_all [Pc.unsubmitted]

theorem raise_closing (p : Process) (region : Region) :
    (p.raise region).pc.closing = true := by
  cases region <;> rfl

/-- A lease check goes onward if its two interesting outcomes do. -/
theorem leaseCheck_onward {region : Region} {content : String} {invalid : Pc}
    {go : Process → Process}
    (h : leaseCheck cfg env p s region content invalid go = (p', s'))
    (hinvalid : (checkLeaseAndStop cfg.leaseExtensionSeconds (p.clock + env.elapsed)
        p.current s).1.leaseValid = false →
      Onward cfg s { p with clock := p.clock + env.elapsed + env.wait, pc := invalid })
    (hgo : (checkLeaseAndStop cfg.leaseExtensionSeconds (p.clock + env.elapsed)
        p.current s).1.leaseValid = true →
      (checkLeaseAndStop cfg.leaseExtensionSeconds (p.clock + env.elapsed)
        p.current s).1.stopRequested = false →
      Onward cfg (checkLeaseAndStop cfg.leaseExtensionSeconds (p.clock + env.elapsed)
        p.current s).2 (go { p with clock := p.clock + env.elapsed + env.wait })) :
    Onward cfg s' p' := by
  obtain ⟨rfl, -⟩ | ⟨rfl, hv, rfl⟩ | ⟨-, -, -, rfl⟩ | ⟨rfl, hv, hstop, rfl⟩ :=
    leaseCheck_cases h
  · exact Onward.closing (raise_closing _ _)
  · rw [(checkLeaseAndStop_invalid hv).1]
    exact hinvalid hv
  · exact Onward.closing rfl
  · exact hgo hv hstop

/-- Before the stream nothing has been read. -/
theorem Remembers.unread (h : Remembers cfg p) (hpc : p.pc.unsubmitted = true) :
    p.content = "" ∧ p.usage = none := by
  unfold Remembers at h
  split at h <;> simp_all [Pc.unsubmitted]

theorem Onward.unread (hsync : Synced s p) (hread : p.content = "" ∧ p.usage = none)
    (hpc : p.pc.unsubmitted = true) : Onward cfg s p := by
  refine ⟨fun _ => hsync, ?_, ?_⟩
  · intro hfinal
    simp [hfinal, Pc.unsubmitted] at hpc
  · unfold Remembers
    split <;> simp_all [Pc.unsubmitted]

/-- The next chunk, its lease checked: the process learns the provider
id and the usage, and may go on to write. -/
theorem checkChunk_onward {chunk : TextStreamChunk} (h : ReadInv cfg s p)
    (hpc : p.pc = .checkChunk chunk)
    (hstep : workerStep cfg env p s = (p', s')) (htok : p.current.leaseToken = some t) :
    Onward cfg s' p' := by
  simp only [workerStep, hpc] at hstep
  have hsync := h.synced (by rw [hpc]; rfl)
  have hrem := h.remembers
  simp only [Remembers, hpc] at hrem
  obtain ⟨seen, ⟨feed, hfeed, hitems⟩, hcontent, husage⟩ := hrem
  refine leaseCheck_onward hstep (fun hinvalid => ?_) (fun hvalid _ => ?_)
  · refine ⟨(fun hfinal => by cases hfinal), fun _ => ?_, ?_⟩
    · intro r hr hrun expiry hexpiry
      obtain ⟨x, hplaced⟩ := h.placed
      obtain rfl := hplaced.eq (p := p) hr
      have := (checkLeaseAndStop_invalid hinvalid).2 r (hplaced.locked hr htok)
        (by rw [hrun]; rfl) expiry hexpiry
      show expiry ≤ p.clock + env.elapsed + env.wait
      omega
    · intro hun
      cases hun
  · split
    · exact Onward.closing rfl
    · next provider hcoherent =>
        have hprovider : p.providerRequestId = none ∨ p.providerRequestId = some provider := by
          unfold coherentProviderRequestId at hcoherent
          split_ifs at hcoherent
          split at hcoherent
          · next hnone => exact Or.inl hnone
          · next x hx =>
              split_ifs at hcoherent with heq
              rw [← hcoherent]
              exact Or.inr (by simpa [heq] using hx)
        have hnew : ∀ q : Process, q.current = p.current →
            q.providerRequestId = some provider →
            Synced (checkLeaseAndStop cfg.leaseExtensionSeconds (p.clock + env.elapsed)
              p.current s).2 q := by
          intro q hcurrent hq r hr
          rw [Holds, hcurrent] at hr
          obtain ⟨hseq, hprov⟩ := hsync.check _ _ r hr
          refine ⟨hcurrent ▸ hseq, ?_⟩
          rw [hq]
          obtain hnone | hsame := hprov
          · exact Or.inl hnone
          · rw [hsame]
            exact hprovider
        by_cases hdelta : chunk.delta = ""
        · simp only [hdelta, if_true]
          refine ⟨fun _ => hnew _ rfl rfl, (fun hfinal => by cases hfinal), ?_⟩
          refine ⟨seen ++ [chunk], ⟨feed, hfeed, by simp [hitems]⟩, ?_, ?_⟩
          · rw [chunkText_snoc, hdelta, String.append_empty]
            exact hcontent
          · rw [chunkUsage_snoc, ← husage]
        · simp only [hdelta, if_false]
          refine ⟨fun _ => hnew _ rfl rfl, (fun hfinal => by cases hfinal), ?_⟩
          refine ⟨seen, ⟨feed, hfeed, by simp [hitems]⟩, hcontent, ?_⟩
          rw [chunkUsage_snoc, ← husage]

/-- A delta was written, or refused. -/
theorem append_onward {chunk : TextStreamChunk} (h : ReadInv cfg s p)
    (hchat : ChatInv s) (hpc : p.pc = .append chunk)
    (hstep : workerStep cfg env p s = (p', s')) (htok : p.current.leaseToken = some t) :
    Onward cfg s' p' := by
  simp only [workerStep, hpc] at hstep
  have hsync := h.synced (by rw [hpc]; rfl)
  have hrem := h.remembers
  simp only [Remembers, hpc] at hrem
  obtain ⟨seen, ⟨feed, hfeed, hitems⟩, hcontent, husage⟩ := hrem
  split at hstep
  · obtain ⟨rfl, rfl⟩ := hstep
    exact Onward.closing rfl
  · next s₁ hattempt =>
      obtain ⟨rfl, rfl⟩ := hstep
      obtain ⟨habsurd, -⟩ | ⟨x, hx, hb⟩ := attempt_cases hattempt
      · cases habsurd
      · obtain rfl : none = x := by simpa using hb
        obtain rfl := appendDelta_none hx
        refine ⟨(fun hfinal => by cases hfinal), fun _ => ?_, fun hun => by cases hun⟩
        intro r hr hrun expiry hexpiry
        obtain ⟨y, hplaced⟩ := h.placed
        obtain rfl := hplaced.eq (p := p) hr
        by_contra hlt
        exact appendDelta_refused hchat hplaced hr htok hsync hrun hexpiry
          (Nat.lt_of_not_le hlt) hx
  · next sequence s₁ hattempt =>
      obtain ⟨rfl, rfl⟩ := hstep
      obtain ⟨habsurd, -⟩ | ⟨x, hx, hb⟩ := attempt_cases hattempt
      · cases habsurd
      · obtain rfl : some sequence = x := by simpa using hb
        obtain ⟨rfl, r, r', hrep, hown, hcounter, hprov⟩ := appendDelta_some hx
        refine ⟨fun _ => ?_, (fun hfinal => by cases hfinal), ?_⟩
        · rintro y ⟨hy, -⟩
          obtain rfl := Option.some.inj (hrep.new.symm.trans hy)
          refine ⟨hcounter, ?_⟩
          rw [hprov]
          show orElse p.providerRequestId r.providerRequestId = none
            ∨ orElse p.providerRequestId r.providerRequestId = p.providerRequestId
          obtain hnone | hsame := (hsync r ⟨hrep.old, hown⟩).2
          · rw [hnone]
            exact orElse_none_cases p.providerRequestId
          · rw [hsame]
            exact Or.inr (orElse_self p.providerRequestId)
        · refine ⟨seen ++ [chunk], ⟨feed, hfeed, hitems⟩, ?_, husage⟩
          rw [chunkText_snoc, ← hcontent]

/-- A doomed process has no valid lease on a running request. -/
theorem Doomed.refused (h : Doomed s p)
    (hvalid : (checkLeaseAndStop cfg.leaseExtensionSeconds (p.clock + env.elapsed)
      p.current s).1.leaseValid = true) :
    (checkLeaseAndStop cfg.leaseExtensionSeconds (p.clock + env.elapsed)
      p.current s).1.stopRequested = true := by
  obtain ⟨r, r', hlock, hst, ⟨expiry, hexpiry, hlt⟩, hstop, -⟩ :=
    checkLeaseAndStop_valid hvalid
  rw [hstop, beq_iff_eq]
  by_contra hne
  have hrun : r.status = .running := by
    cases hrst : r.status <;> simp_all [runningStatuses]
  have := h r (holds_of_locked hlock) hrun expiry hexpiry
  omega

/-- The final check lets only a stream that was read in full through. -/
theorem finalCheck_onward {finished : Bool} (h : ReadInv cfg s p)
    (hpc : p.pc = .finalCheck finished)
    (hstep : workerStep cfg env p s = (p', s')) : Onward cfg s' p' := by
  simp only [workerStep, hpc] at hstep
  refine leaseCheck_onward hstep (fun _ => Onward.closing rfl) (fun hvalid hstop => ?_)
  cases finished with
  | false => simp [(h.doomed hpc).refused hvalid] at hstop
  | true =>
      have hsync := h.synced (by rw [hpc]; rfl)
      have hrem := h.remembers
      simp only [Remembers, hpc] at hrem
      exact ⟨fun _ => (hsync.check _ _).congr rfl rfl, (fun hfinal => by cases hfinal),
        hrem⟩

/-- Before the stream. -/
theorem unsubmitted_onward (h : ReadInv cfg s p) (hpc : p.pc.unsubmitted = true)
    (hopen : p.pc ≠ .openStream) (hstep : workerStep cfg env p s = (p', s')) :
    Onward cfg s' p' := by
  have hread := h.remembers.unread hpc
  -- the step keeps what it knows and stands before the stream, or winds down
  have hkeep : ∀ {q : Process} {s₁ : Store}, q.content = p.content → q.usage = p.usage →
      Synced s₁ q → q.pc.unsubmitted = true → Onward cfg s₁ q :=
    fun hc hu hsync hq => Onward.unread hsync ⟨hc.trans hread.1, hu.trans hread.2⟩ hq
  cases hcase : p.pc with
  | begin =>
      have hsync := h.synced (by rw [hcase]; rfl)
      simp only [workerStep, hcase] at hstep
      split_ifs at hstep
      · obtain ⟨rfl, rfl⟩ := hstep
        exact Onward.closing rfl
      · obtain ⟨rfl, rfl⟩ := hstep
        exact Onward.closing rfl
      · obtain ⟨rfl, rfl⟩ := hstep
        exact hkeep rfl rfl (hsync.congr rfl rfl) rfl
  | firstCheck =>
      have hsync := h.synced (by rw [hcase]; rfl)
      simp only [workerStep, hcase] at hstep
      exact leaseCheck_onward hstep (fun _ => Onward.closing rfl) fun _ _ =>
        hkeep rfl rfl ((hsync.check _ _).congr rfl rfl) rfl
  | prepare =>
      have hsync := h.synced (by rw [hcase]; rfl)
      simp only [workerStep, hcase] at hstep
      split_ifs at hstep
      · obtain ⟨rfl, rfl⟩ := hstep
        exact Onward.closing rfl
      · split at hstep
        · obtain ⟨rfl, rfl⟩ := hstep
          exact hkeep rfl rfl (hsync.congr rfl rfl) rfl
        · obtain ⟨rfl, rfl⟩ := hstep
          exact hkeep rfl rfl (hsync.congr rfl rfl) rfl
        · obtain ⟨rfl, rfl⟩ := hstep
          exact Onward.closing rfl
  | requeue =>
      simp only [workerStep, hcase] at hstep
      split at hstep
      · obtain ⟨rfl, rfl⟩ := hstep
        exact Onward.closing rfl
      · obtain ⟨rfl, rfl⟩ := hstep
        cases (requeueClaimed (p.clock + env.elapsed) p.current s).1 with
        | true =>
            exact ⟨(fun hsync => by cases hsync), (fun hfinal => by cases hfinal),
              fun _ => hread⟩
        | false => exact Onward.closing rfl
  | secondCheck =>
      have hsync := h.synced (by rw [hcase]; rfl)
      simp only [workerStep, hcase] at hstep
      exact leaseCheck_onward hstep (fun _ => Onward.closing rfl) fun _ _ =>
        hkeep rfl rfl ((hsync.check _ _).congr rfl rfl) rfl
  | openStream => exact absurd hcase hopen
  | requeued =>
      simp only [workerStep, hcase] at hstep
      obtain ⟨rfl, rfl⟩ := hstep
      exact ⟨h.synced, h.doomed, h.remembers⟩
  | _ => simp [hcase, Pc.unsubmitted] at hpc

theorem next_onward (h : ReadInv cfg s p) (hpc : p.pc = .next)
    (hstep : workerStep cfg env p s = (p', s')) : Onward cfg s' p' := by
  have hsync := h.synced (by rw [hpc]; rfl)
  have hrem := h.remembers
  simp only [Remembers, hpc] at hrem
  simp only [workerStep, hpc] at hstep
  obtain ⟨seen, htaken, hcontent, husage⟩ := hrem
  split_ifs at hstep
  · obtain ⟨rfl, rfl⟩ := hstep
    exact Onward.closing rfl
  · split at hstep
    · next hrest =>
        obtain ⟨rfl, rfl⟩ := hstep
        rw [hrest] at htaken
        exact ⟨fun _ => hsync.congr rfl rfl, (fun hfinal => by cases hfinal),
          seen, htaken, hcontent, husage⟩
    · obtain ⟨rfl, rfl⟩ := hstep
      refine Onward.closing ?_
      unfold Process.raiseProvider
      split <;> rfl
    · obtain ⟨rfl, rfl⟩ := hstep
      exact Onward.closing rfl
    · next c rest hrest =>
        obtain ⟨rfl, rfl⟩ := hstep
        rw [hrest] at htaken
        exact ⟨fun _ => hsync.congr rfl rfl, (fun hfinal => by cases hfinal),
          seen, htaken, hcontent, husage⟩

/-- A process is right about its row after a step of its own. -/
theorem workerStep_onward (h : ReadInv cfg s p) (hchat : ChatInv s)
    (htok : p.current.leaseToken = some t)
    (hstep : workerStep cfg env p s = (p', s')) : Onward cfg s' p' := by
  cases hpc : p.pc with
  | openStream =>
      have hread := h.remembers.unread (by rw [hpc]; rfl)
      have hsync := h.synced (by rw [hpc]; rfl)
      simp only [workerStep, hpc] at hstep
      obtain ⟨rfl, rfl⟩ := hstep
      exact ⟨fun _ => hsync.congr rfl rfl, (fun hfinal => by cases hfinal),
        [], ⟨env.feed, rfl, rfl⟩, hread.1, hread.2⟩
  | next => exact next_onward h hpc hstep
  | checkChunk chunk => exact checkChunk_onward h hpc hstep htok
  | append chunk => exact append_onward h hchat hpc hstep htok
  | finalCheck finished => exact finalCheck_onward h hpc hstep
  | complete =>
      have hrem := h.remembers
      simp only [Remembers, hpc] at hrem
      simp only [workerStep, hpc] at hstep
      split at hstep
      · obtain ⟨rfl, rfl⟩ := hstep
        exact Onward.closing rfl
      · obtain ⟨rfl, rfl⟩ := hstep
        exact Onward.closing rfl
      · obtain ⟨rfl, rfl⟩ := hstep
        exact ⟨(fun hsync => by cases hsync), (fun hfinal => by cases hfinal), hrem⟩
  | stopping point =>
      simp only [workerStep, hpc] at hstep
      split at hstep
      · obtain ⟨rfl, rfl⟩ := hstep
        exact Onward.closing (raise_closing _ _)
      · obtain ⟨rfl, rfl⟩ := hstep
        exact Onward.closing rfl
      · obtain ⟨rfl, rfl⟩ := hstep
        exact Onward.closing rfl
  | releasing region =>
      simp only [workerStep, hpc] at hstep
      split at hstep
      · obtain ⟨rfl, rfl⟩ := hstep
        exact Onward.closing rfl
      · split at hstep
        · obtain ⟨rfl, rfl⟩ := hstep
          exact Onward.closing (raise_closing _ _)
        · obtain ⟨rfl, rfl⟩ := hstep
          exact Onward.closing rfl
  | capture =>
      simp only [workerStep, hpc] at hstep
      split at hstep
      · obtain ⟨rfl, rfl⟩ := hstep
        exact Onward.closing rfl
      · obtain ⟨rfl, rfl⟩ := hstep
        exact Onward.closing rfl
  | failing code details provider reserved =>
      simp only [workerStep, hpc] at hstep
      split at hstep
      · obtain ⟨rfl, rfl⟩ := hstep
        refine Onward.closing ?_
        cases reserved <;> rfl
      · obtain ⟨rfl, rfl⟩ := hstep
        exact Onward.closing rfl
  | markingUnknown code provider =>
      simp only [workerStep, hpc] at hstep
      obtain ⟨rfl, rfl⟩ := hstep
      exact Onward.closing rfl
  | ended =>
      simp only [workerStep, hpc] at hstep
      obtain ⟨rfl, rfl⟩ := hstep
      exact Onward.closing (by rw [hpc]; rfl)
  | _ => exact unsubmitted_onward h (by rw [hpc]; rfl) (by simp [hpc]) hstep

/-- Its own steps keep a process right about its row. -/
theorem ReadInv.own (h : ReadInv cfg s p) (hchat : ChatInv s)
    (htok : p.current.leaseToken = some t)
    (hstep : workerStep cfg env p s = (p', s')) : ReadInv cfg s' p' := by
  have honward := workerStep_onward h hchat htok hstep
  refine { placed := ?_, synced := honward.synced, doomed := honward.doomed
           remembers := honward.remembers }
  obtain ⟨r, hr⟩ := h.placed
  have hkept := workerStep_kept hstep
  obtain ⟨who, heff, -⟩ := (workerStep_wrote hstep).effects hchat
  obtain ⟨r', hr', hsame⟩ := heff.same_request hr.row
  refine ⟨r', ?_⟩
  constructor
  · rw [hkept.current]
    exact hr'
  · rw [hkept.current]
    exact hsame.tenantId.trans hr.tenantId
  · rw [hkept.current]
    exact hsame.requestId.trans hr.requestId
  · rw [hkept.current]
    exact hsame.messageId.trans hr.messageId
  · rw [hkept.current]
    exact hsame.conversationId.trans hr.conversationId
  · rw [hkept.current]
    exact hsame.reservation.trans hr.reservation

/-- A claim starts a process that is right about its row. -/
theorem Claimed.readInv {r r' : InferenceRequest} (hc : Claimed s s' e r r')
    (now : Nat) : ReadInv cfg s' (.start now e) := by
  have hnew : ∀ x, Holds s' (.start now e) x → x = r' := fun x hx =>
    Option.some.inj (hx.1.symm.trans hc.requests.new)
  refine { placed := ⟨r', ?_⟩, synced := ?_, doomed := (fun hfinal => by cases hfinal)
           remembers := fun _ => ⟨rfl, rfl⟩ }
  · exact
      { row := hc.requests.new
        tenantId := hc.same.tenantId.trans hc.tenant.1.symm
        requestId := hc.same.requestId.trans hc.tenant.2.symm
        messageId := hc.same.messageId.trans hc.place.1.symm
        conversationId := hc.same.conversationId.trans hc.place.2.symm
        reservation := hc.same.reservation.trans hc.reservation.symm }
  · intro _ x hx
    rw [hnew x hx, hc.sequence.2, hc.provider.2]
    exact ⟨hc.sequence.1.symm, Or.inr hc.provider.1.symm⟩

end Mosaic.Chat
