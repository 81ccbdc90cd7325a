/-
A message says what was logged for it.

# The invariant

While a request is active its message says what its log says (`LinkInv`).
`Told` adds that this stays so when the request is over, for as long as the
message is linked to it, so that a reader of messages and a reader of logs
see one answer.

# What ends a request

A worker hands a text over when it completes a request or stops one
(`Op.Retells`), and the text is the one it has logged (`RetoldInv.retells`).
All other endings, of the API and of the sweep, leave the text alone.
-/
import Mosaic.Chat.Proofs.Readable

namespace Mosaic.Chat

open Lib Providers

variable {cfg : Config} {who : Caller} {w : World} {s s' : Store} {id : Nat}
  {e : Execution} {r r' : InferenceRequest} {c c' : Conversation} {m m' : Message}
  {ev : StreamEvent} {book : Catalog.PriceBook}

/-- A message that is linked to a request says the deltas of its log. -/
def Told (s : Store) : Prop :=
  ∀ mid m id, s.messages.get mid = some m → m.requestId = some id →
    m.content = deltas (s.log id)

theorem Told.congr (h : Told s) (hmessages : s'.messages = s.messages)
    (hevents : s'.events = s.events) : Told s' := by
  intro mid x id hx hid
  rw [log_congr hevents]
  rw [hmessages] at hx
  exact h mid x id hx hid

/-- An event that is no delta adds nothing. -/
theorem deltas_insert (hevents : s'.events = s.events.insert ev) (hsilent : ev.body.text = "")
    (id : Nat) : deltas (s'.log id) = deltas (s.log id) := by
  by_cases hid : ev.inferenceRequestId = id
  · rw [log_insert_self hevents hid, deltas_snoc, hsilent]
    exact String.append_empty
  · rw [log_insert_other hevents hid]

theorem text_of_terminal {b : EventBody} (h : b.terminal = true) : b.text = "" := by
  cases b with
  | delta text => cases h
  | started | completed | stopped | failed => rfl

-- =============================================================== effects

/-- A request ends and its message keeps its text. -/
theorem Told.ended (h : Told s) (he : Ended who s s' id r r' c c' m m' ev)
    (hcontent : m'.content = m.content) : Told s' := by
  intro mid x j hx hlink
  rw [deltas_insert he.events (text_of_terminal he.eventTerminal)]
  obtain ⟨-, rfl⟩ | ⟨-, hx⟩ := he.messages.cases hx
  · rw [hcontent]
    exact h _ m j he.messages.old (he.messageSame.1.symm.trans hlink)
  · exact h mid x j hx hlink

/-- An accepted request has said nothing, and its message is empty. -/
theorem Told.accepted (h : Told s) (hinv : ChatInv s) {cid mid : Nat} {o : OutboxEvent}
    (ha : Accepted s s' cid mid c c' r m ev o) : Told s' := by
  have hsilent : ev.body.text = "" := by
    rw [ha.eventBody]
    rfl
  intro mid' x j hx hlink
  rw [deltas_insert ha.events hsilent]
  by_cases hmid : mid' = mid
  · subst hmid
    obtain rfl := Option.some.inj (ha.message.symm.trans hx)
    obtain rfl := Option.some.inj (ha.messageLink.symm.trans hlink)
    -- no event is of a request to come
    have hfresh : s.log s.requests.nextId = [] := by
      apply List.filter_eq_nil_iff.mpr
      intro y hy
      have hlt := hinv.log.known y hy
      simp only [beq_iff_eq]
      omega
    rw [ha.streaming.2, hfresh]
    rfl
  · obtain hold | hnone := ha.messageOther mid' x hmid hx
    · exact h mid' x j hold hlink
    · rw [hnone] at hlink
      cases hlink

theorem Told.delta (h : Told s) (hinv : ChatInv s) {text : String}
    (hd : DeltaWritten who s s' id r r' m m' ev text) : Told s' := by
  intro mid x j hx hlink
  obtain ⟨rfl, rfl⟩ | ⟨hmid, hx⟩ := hd.messages.cases hx
  · rw [hd.messageSame.1] at hlink
    obtain rfl := Option.some.inj (hd.link.symm.trans hlink)
    rw [log_insert_self hd.events hd.eventRequest, deltas_snoc, hd.eventBody, hd.content.1,
      h _ m _ hd.messages.old hd.link]
    rfl
  · -- the request answers into one message
    have hj : ev.inferenceRequestId ≠ j := by
      rw [hd.eventRequest]
      rintro rfl
      obtain ⟨z, hz, hzmid, -⟩ := hinv.link.owner mid x _ hx hlink
      obtain rfl := Option.some.inj (hd.requests.old.symm.trans hz)
      exact hmid hzmid.symm
    rw [log_insert_other hd.events hj]
    exact h mid x j hx hlink

/-- An effect keeps the texts if the endings do. -/
theorem Told.effect (h : Told s) (hinv : ChatInv s) (heff : Effect who s s')
    (hended : ∀ {id r r' c c' m m' ev}, Ended who s s' id r r' c c' m m' ev →
      m'.content = m.content) : Told s' := by
  cases heff with
  | quiet hq => exact h.congr hq.messages hq.events
  | opened c ho => exact h.congr ho.messages ho.events
  | accepted cid mid c c' x m e o ha => exact h.accepted hinv ha
  | moved j y y' hm => exact h.congr hm.messages hm.events
  | delta j y y' m m' e text hd => exact h.delta hinv hd
  | ended j y y' c c' m m' e he => exact h.ended he (hended he)

/-- A caller that ends no request. -/
theorem Told.effects (h : Told s) (hinv : ChatInv s) (heff : Effects who s s')
    (hends : who.outcomes = []) : Told s' := by
  cases heff with
  | one heff =>
      refine h.effect hinv heff fun he => ?_
      have houtcome := he.outcome
      rw [hends] at houtcome
      cases houtcome
  | sweep hwho _ =>
      rw [hwho] at hends
      cases hends

/-- What writes no text keeps the texts of what it ends. -/
theorem Ended.content_kept {body : EventBody → Prop}
    (he : Ended who s s' id r r' c c' m m' ev) (hw : Written (fun _ => False) body s s') :
    m'.content = m.content := by
  obtain habsurd | ⟨x, hx, hsame⟩ := hw.messages _ m' he.messages.new
  · exact habsurd.elim
  · obtain rfl := Option.some.inj (he.messages.old.symm.trans hx)
    exact hsame.symm

/-- The sweep, row by row. -/
theorem Told.reconcile (h : Told s) (hinv : ChatInv s) (now : Nat) (ids : List Nat) :
    Told (ids.foldl (reconcileExpiredRow now) s) := by
  induction ids generalizing s with
  | nil => exact h
  | cons id ids ih =>
      have hwritten := reconcileExpiredRow_written now s id
      obtain hsame | hswept := reconcileExpiredRow_swept hinv now id
      · rw [List.foldl_cons, hsame]
        exact ih h hinv
      · refine ih (h.effect hinv hswept.effect fun he => he.content_kept hwritten) ?_
        exact hinv.effect hswept.effect

-- ================================================================ worker

/-- The end of a held request, with a text the log bears out. -/
theorem Told.rewritten (h : Told s) (hm : lockedMessage s e = some m)
    {f : Message → Message} (hmessages : s'.messages = s.messages.modify e.messageId f)
    (hevents : s'.events = s.events.insert ev) (hsilent : ev.body.text = "")
    (hlink : (f m).requestId = m.requestId)
    (hcontent : (f m).content = m.content ∨ (f m).content = deltas (s.log e.requestDbId)) :
    Told s' := by
  obtain ⟨hget, hown⟩ := lockedMessage_some hm
  intro mid x j hx hid
  rw [deltas_insert hevents hsilent]
  rw [hmessages] at hx
  obtain ⟨rfl, y, hy, rfl⟩ | ⟨-, hx⟩ := Table.get_modify_cases hx
  · obtain rfl := Option.some.inj (hget.symm.trans hy)
    rw [hlink] at hid
    obtain hsame | hnew := hcontent
    · rw [hsame]
      exact h _ m j hget hid
    · obtain rfl := Option.some.inj (hown.symm.trans hid)
      exact hnew
  · exact h mid x j hx hid

theorem locked_of_filter {lockedNow : Nat} {seq : Int} {statuses : List RequestStatus}
    {provider : Option String}
    (h : (lockedWritableRequest s lockedNow e seq statuses).filter
      (fun r => providerIdIsCoherent r provider) = some r) : lockedRequest s e = some r :=
  (Option.filter_eq_some_iff.mp (Option.filter_eq_some_iff.mp h).1).1

theorem Told.markCompleted {now lockedNow : Nat} {seq : Int} {content : String}
    {provider : Option String} {usage : TokenUsage} {x : Bool × Store} (h : Told s)
    (hcontent : ∀ r, lockedRequest s e = some r → content = deltas (s.log e.requestDbId))
    (hx : markCompleted book now lockedNow e seq content provider usage s = .ok x) :
    Told x.2 := by
  unfold Chat.markCompleted at hx
  split at hx
  · rw [pure_eq_ok] at hx
    exact hx ▸ h
  · next r hfilter =>
      split at hx
      · next m c hm hc =>
          simp only [bind_eq_ok, pure_eq_ok] at hx
          obtain ⟨price, -, charge, -, -, -, usageRecords, -, rfl⟩ := hx
          exact h.rewritten hm rfl rfl rfl rfl
            (Or.inr (hcontent r (locked_of_filter hfilter)))
      · rw [pure_eq_ok] at hx
        exact hx ▸ h

theorem Told.terminal {now lockedNow : Nat} {seq : Int} {t : Terminal} {x : Bool × Store}
    (h : Told s)
    (hcontent : ∀ r, lockedRequest s e = some r → t.content ≠ "" →
      t.content = deltas (s.log e.requestDbId))
    (hx : terminalWithoutUsage now lockedNow e seq t s = .ok x) : Told x.2 := by
  unfold terminalWithoutUsage at hx
  split at hx
  · rw [pure_eq_ok] at hx
    exact hx ▸ h
  · next r hfilter =>
      split at hx
      · next m c hm hc =>
          simp only [bind_eq_ok, pure_eq_ok] at hx
          obtain ⟨-, -, rfl⟩ := hx
          have hsilent : (t.body r).text = "" := by
            unfold Terminal.body
            split
            · rfl
            · rfl
          refine h.rewritten hm rfl rfl hsilent rfl ?_
          by_cases hempty : t.content = ""
          · exact Or.inl (if_pos hempty)
          · right
            rw [← hcontent r (locked_of_filter hfilter) hempty]
            exact if_neg hempty
      · rw [pure_eq_ok] at hx
        exact hx ▸ h

-- ================================================================== steps

/-- A text a call hands over is the one that was logged. -/
def Op.Retells (s : Store) : Op → Prop
  | .markCompleted _ _ e _ content _ _ =>
      ∀ r, lockedRequest s e = some r → content = deltas (s.log e.requestDbId)
  | .markStopped _ _ e _ content =>
      ∀ r, lockedRequest s e = some r → content = deltas (s.log e.requestDbId)
  | _ => True

theorem Told.perform (h : Told s) (hinv : ChatInv s) {op : Op} (hop : op.Retells s)
    (hperform : op.perform book s = .ok s') : Told s' := by
  have heffects := perform_effects hinv hperform
  cases op with
  | stop now tenantId actorUserId conversationId requestId =>
      simp only [Op.perform, bind_eq_ok, pure_eq_ok] at hperform
      obtain ⟨x, hx, rfl⟩ := hperform
      exact h.effect hinv (stop_effect hinv hx) fun he => he.content_kept (stop_written hx)
  | markCompleted now lockedNow e seq content provider usage =>
      simp only [Op.perform, bind_eq_ok, pure_eq_ok] at hperform
      obtain ⟨x, hx, rfl⟩ := hperform
      exact h.markCompleted hop hx
  | markStopped now lockedNow e seq content =>
      simp only [Op.perform, bind_eq_ok, pure_eq_ok] at hperform
      obtain ⟨x, hx, rfl⟩ := hperform
      exact h.terminal (fun r hr _ => hop r hr) hx
  | markFailed now lockedNow e seq errorCode errorDetails provider =>
      simp only [Op.perform, bind_eq_ok, pure_eq_ok] at hperform
      obtain ⟨x, hx, rfl⟩ := hperform
      exact h.terminal (fun _ _ hne => absurd rfl hne) hx
  | markSubmittedUnknown now lockedNow e provider errorCode =>
      simp only [Op.perform, bind_eq_ok, pure_eq_ok] at hperform
      obtain ⟨x, hx, rfl⟩ := hperform
      exact h.terminal (fun _ _ hne => absurd rfl hne) hx
  | reconcileExpiredOnce now limit locked =>
      simp only [Op.perform, reconcileExpiredOnce, bind_eq_ok, pure_eq_ok] at hperform
      obtain ⟨-, -, rfl⟩ := hperform
      exact h.reconcile hinv now _
  | create | submit | regenerate | claimQueued | requeueClaimed | checkLeaseAndStop
  | appendDelta | billing => exact h.effects hinv heffects rfl

/-- What a process hands over is what it has logged. -/
theorem RetoldInv.retells (h : RetoldInv w) {a : Act} {op : Op} (hop : a.op cfg w = some op) :
    op.Retells w.store := by
  cases a with
  | claim => cases hop
  | settle now tenantId reservationId capture =>
      obtain rfl := Option.some.inj hop
      trivial
  | api op' hapi =>
      obtain rfl := Option.some.inj hop
      cases op' with
      | markCompleted | markStopped => cases hapi
      | create | submit | regenerate | stop | claimQueued | requeueClaimed
      | checkLeaseAndStop | appendDelta | markFailed | markSubmittedUnknown
      | reconcileExpiredOnce | billing => trivial
  | work pid env =>
      obtain ⟨p, hp, hcall⟩ := Option.bind_eq_some_iff.mp hop
      cases hpc : p.pc with
      | complete =>
          simp only [Process.call, hpc, Option.some.injEq] at hcall
          subst hcall
          intro r hr
          exact (h.retold pid p hp p.content (Process.told_of_inSync (by rw [hpc]; rfl)) r
            (holds_of_locked hr)).symm
      | stopping point =>
          simp only [Process.call, hpc, Option.some.injEq] at hcall
          subst hcall
          intro r hr
          exact (h.retold pid p hp _ (Process.told_stopping hpc) r (holds_of_locked hr)).symm
      | releasing | capture =>
          simp only [Process.call, hpc] at hcall
          obtain ⟨reservationId, -, rfl⟩ := Option.map_eq_some_iff.mp hcall
          trivial
      | firstCheck | secondCheck | checkChunk | finalCheck | requeue | append | failing
      | markingUnknown =>
          simp only [Process.call, hpc, Option.some.injEq] at hcall
          subst hcall
          trivial
      | begin | prepare | openStream | next | requeued | ended =>
          simp only [Process.call, hpc] at hcall
          cases hcall

/-- Every act keeps messages and logs in step. -/
theorem Told.act (h : Told w.store) (hinv : ChatInv w.store) (hret : RetoldInv w) (a : Act) :
    Told (worldStep cfg w a).store := by
  rcases worldStep_op cfg w a with ⟨hmessages, hevents⟩ | ⟨op, hop, hs⟩
  · exact h.congr hmessages hevents
  · rw [hs]
    unfold step
    split
    · next s' hperform => exact h.perform hinv (hret.retells hop) hperform
    · exact h

theorem Told.opening (h : Opening s) : Told s := by
  intro mid m id hm hid
  rw [h.messages mid m hm] at hid
  cases hid

end Mosaic.Chat
