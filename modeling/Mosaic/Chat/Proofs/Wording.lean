/-
What the operations say.

An `Effect` names the rows an operation writes and leaves out the words:
the text of a message that ends, the payload of a last event. They are
collected here. `Op.texts` are the contents an operation may store in a
message, `Op.bodies` the events it may write, and `perform_written` says
that everything else in the two tables was there before.

A process makes one call at a time, and `Process.call` is that call, so
what a worker says is what its call says (`workerStep_call`).
-/
import Mosaic.Chat.Proofs.Process

namespace Mosaic.Chat

open Lib Providers

variable {cfg : Config} {env : Env} {s s' : Store} {p p' : Process} {e : Execution}
  {m : Message} {book : Catalog.PriceBook} {text text' : String → Prop}
  {body body' : EventBody → Prop}

-- =============================================================== written

/-- Every content is an old one or one of `text`, every event an old one
or one of `body`. -/
structure Written (text : String → Prop) (body : EventBody → Prop) (s s' : Store) :
    Prop where
  messages : ∀ mid m, s'.messages.get mid = some m →
    text m.content ∨ ∃ m₀, s.messages.get mid = some m₀ ∧ m₀.content = m.content
  events : ∀ e ∈ s'.events.rows, e ∈ s.events.rows ∨ body e.body

theorem Written.congr (hm : s'.messages = s.messages) (he : s'.events = s.events) :
    Written text body s s' :=
  ⟨fun _ m hget => Or.inr ⟨m, hm ▸ hget, rfl⟩, fun _ hmem => Or.inl (he ▸ hmem)⟩

theorem Written.trans {t : Store} (h : Written text body s t)
    (h' : Written text body t s') : Written text body s s' := by
  refine ⟨fun mid m hm => ?_, fun e he => ?_⟩
  · obtain hnew | ⟨m₁, hm₁, heq⟩ := h'.messages mid m hm
    · exact Or.inl hnew
    · rw [← heq]
      exact h.messages mid m₁ hm₁
  · obtain hold | hnew := h'.events e he
    · exact h.events e hold
    · exact Or.inr hnew

theorem Written.mono (h : Written text body s s') (htext : ∀ t, text t → text' t)
    (hbody : ∀ b, body b → body' b) : Written text' body' s s' :=
  ⟨fun mid m hm => (h.messages mid m hm).imp_left (htext _),
    fun e he => (h.events e he).imp_right (hbody _)⟩

theorem body_of_insert {x y : StreamEvent} (he : s'.events = s.events.insert x)
    (hx : body x.body) (hy : y ∈ s'.events.rows) : y ∈ s.events.rows ∨ body y.body := by
  rw [he, Table.rows_insert, List.mem_append, List.mem_singleton] at hy
  obtain hold | rfl := hy
  · exact Or.inl hold
  · exact Or.inr hx

/-- An update of one message and one new event. -/
theorem Written.modify {mid : Nat} {f : Message → Message} {x : StreamEvent}
    (hm : s'.messages = s.messages.modify mid f) (he : s'.events = s.events.insert x)
    (htext : ∀ m, s.messages.get mid = some m →
      text (f m).content ∨ m.content = (f m).content)
    (hbody : body x.body) : Written text body s s' := by
  refine ⟨fun j m hget => ?_, fun y hy => body_of_insert he hbody hy⟩
  rw [hm] at hget
  obtain ⟨rfl, m₀, hold, rfl⟩ | ⟨-, hold⟩ := Table.get_modify_cases hget
  · exact (htext m₀ hold).imp_right fun heq => ⟨m₀, hold, heq⟩
  · exact Or.inr ⟨m, hold, rfl⟩

-- =============================================================== silent

theorem create_silent {now : Nat} {catalog : Catalog.CatalogRows}
    {tenantId actorUserId : Nat} {key clientRequestId requestHash : String}
    {x : Nat × Bool × Store}
    (h : create now catalog tenantId actorUserId key clientRequestId requestHash s
      = .ok x) : x.2.2.messages = s.messages ∧ x.2.2.events = s.events := by
  simp only [create, bind_eq_ok] at h
  obtain ⟨⟨idemId, idem, inserted, s₁⟩, hclaim, h⟩ := h
  obtain ⟨t, ht⟩ := claimIdempotency_ok hclaim
  simp only at ht h
  subst ht
  split at h
  · simp only [bind_eq_ok, pure_eq_ok] at h
    obtain ⟨-, -, -, -, rfl⟩ := h
    exact ⟨rfl, rfl⟩
  · simp only [bind_eq_ok, pure_eq_ok] at h
    obtain ⟨p, -, rfl⟩ := h
    exact ⟨rfl, rfl⟩

theorem claimQueued_silent {now : Nat} {catalog : Catalog.CatalogRows}
    {locked : Nat → Bool} {workerId : String} {leaseSeconds : Nat}
    {tenantId requestId : Option Nat} {x : Option Execution × Store}
    (h : claimQueued now catalog locked workerId leaseSeconds tenantId requestId s
      = .ok x) : x.2.messages = s.messages ∧ x.2.events = s.events := by
  simp only [claimQueued, bind_eq_ok] at h
  obtain ⟨-, -, -, -, h⟩ := h
  split at h
  · rw [pure_eq_ok] at h
    subst h
    exact ⟨rfl, rfl⟩
  · split at h
    · rw [pure_eq_ok] at h
      subst h
      exact ⟨rfl, rfl⟩
    · rw [pure_eq_ok] at h
      subst h
      exact ⟨rfl, rfl⟩

theorem checkLeaseAndStop_silent (ext now : Nat) (e : Execution) (s : Store) :
    (checkLeaseAndStop ext now e s).2.messages = s.messages
      ∧ (checkLeaseAndStop ext now e s).2.events = s.events := by
  unfold checkLeaseAndStop
  split
  · exact ⟨rfl, rfl⟩
  · exact ⟨rfl, rfl⟩

-- ============================================================ operations

/-- The contents an operation may store. -/
def Op.texts (s : Store) : Op → String → Prop
  | .submit _ _ _ _ _ content _ _, t => t = content ∨ t = ""
  | .regenerate .., t => t = ""
  | .appendDelta _ _ _ e _ delta _, t =>
      ∃ r m, lockedRequest s e = some r ∧ r.status = .running
        ∧ lockedMessage s e = some m ∧ t = m.content ++ delta
  | .markCompleted _ _ _ _ content _ _, t => t = content
  | .markStopped _ _ _ _ content, t => t = content
  | _, _ => False

/-- `error_code or "CHAT_PROVIDER_ERROR"`. -/
def shownCode (errorCode : String) : String :=
  (orElse (some errorCode) none).getD "CHAT_PROVIDER_ERROR"

theorem shownCode_eq {errorCode : String} (h : errorCode ≠ "") :
    shownCode errorCode = errorCode := by
  rw [shownCode, orElse, if_neg h]
  rfl

/-- The error a failed event of the worker shows. -/
def Blames (errorCode : String) (b : EventBody) : Prop :=
  ∃ err, b = .failed err ∧ err.code = shownCode errorCode
    ∧ err.message = "模型响应未能完成"

/-- The events an operation may write. -/
def Op.bodies (s : Store) : Op → EventBody → Prop
  | .submit .., b => b = .started
  | .regenerate .., b => b = .started
  | .stop .., b => b = .stopped
  | .appendDelta _ _ _ e _ delta _, b =>
      b = .delta delta ∧ delta ≠ "" ∧ ∃ r, lockedRequest s e = some r ∧ r.status = .running
  | .markCompleted _ _ _ _ content _ _, b => b = .completed content
  | .markStopped .., b => b = .stopped
  | .markFailed _ _ _ _ errorCode _ _, b => Blames errorCode b
  | .markSubmittedUnknown _ _ _ _ errorCode, b => Blames errorCode b
  | .reconcileExpiredOnce .., b => b = .stopped ∨ Blames "CHAT_LEASE_EXPIRED" b
  | _, _ => False

-- ================================================================ accept

/-- A submit inserts what the user said, and an empty answer, into an idle
conversation of the user. -/
theorem submit_said {now : Nat} {catalog : Catalog.CatalogRows}
    {tenantId actorUserId conversationId : Nat}
    {content clientRequestId requestHash : String} {x : AcceptedChatRequest × Store}
    (h : submit now catalog book tenantId actorUserId conversationId content
      clientRequestId requestHash s = .ok x) :
    (x.2.messages = s.messages ∧ x.2.events = s.events)
      ∨ ∃ c mu m ev, lockConversation s tenantId actorUserId conversationId = some c
        ∧ c.activeInferenceRequestId = none
        ∧ x.2.messages = (s.messages.insert mu).insert m
        ∧ mu.content = content ∧ m.content = "" ∧ m.role = .assistant
        ∧ mu.conversationId = conversationId ∧ m.conversationId = conversationId
        ∧ x.2.events = s.events.insert ev ∧ ev.body = .started := by
  simp only [submit, bind_eq_ok] at h
  obtain ⟨⟨idemId, idem, inserted, s₁⟩, hclaim, h⟩ := h
  obtain ⟨t, ht⟩ := claimIdempotency_ok hclaim
  simp only at ht h
  subst ht
  split at h
  · simp only [bind_eq_ok, pure_eq_ok] at h
    obtain ⟨-, -, rfl⟩ := h
    exact Or.inl ⟨rfl, rfl⟩
  · simp only [bind_eq_ok, orRaise_eq_ok, raiseIf_eq_ok, not_not, pure_eq_ok] at h
    obtain ⟨c, hc, -, hidle, deploymentId, -, ⟨request, s₂⟩, happend, rfl⟩ := h
    simp only [appendRequestTransaction, bind_eq_ok, pure_eq_ok] at happend
    obtain ⟨decision, -, -, -, ⟨reservation, billing⟩, -, -, -, c₁, -, happend⟩ := happend
    obtain ⟨-, rfl⟩ := Prod.mk.inj happend
    exact Or.inr ⟨c, _, _, _, hc, hidle, Table.modify_insert_self _ _ _, rfl, rfl, rfl, rfl,
      rfl, rfl, rfl⟩

/-- A repeated submit adds nothing to the conversation. -/
theorem submit_replayed {now : Nat} {catalog : Catalog.CatalogRows}
    {tenantId actorUserId conversationId : Nat}
    {content clientRequestId requestHash : String} {x : AcceptedChatRequest × Store}
    (h : submit now catalog book tenantId actorUserId conversationId content
      clientRequestId requestHash s = .ok x) (hseen : x.1.replayed = true) :
    x.2.messages = s.messages := by
  simp only [submit, bind_eq_ok] at h
  obtain ⟨⟨idemId, idem, inserted, s₁⟩, hclaim, h⟩ := h
  obtain ⟨t, ht⟩ := claimIdempotency_ok hclaim
  simp only at ht h
  subst ht
  split at h
  · simp only [bind_eq_ok, pure_eq_ok] at h
    obtain ⟨-, -, rfl⟩ := h
    rfl
  · simp only [bind_eq_ok, pure_eq_ok] at h
    obtain ⟨c, -, -, -, deploymentId, -, ⟨request, s₂⟩, -, rfl⟩ := h
    cases hseen

theorem submit_written {now : Nat} {catalog : Catalog.CatalogRows}
    {tenantId actorUserId conversationId : Nat}
    {content clientRequestId requestHash : String} {x : AcceptedChatRequest × Store}
    (h : submit now catalog book tenantId actorUserId conversationId content
      clientRequestId requestHash s = .ok x) :
    Written (fun t => t = content ∨ t = "") (· = .started) s x.2 := by
  obtain ⟨hm, he⟩ | ⟨c, mu, m, ev, -, -, hm, hmu, hcontent, -, -, -, he, hbody⟩ :=
    submit_said h
  · exact Written.congr hm he
  · refine ⟨fun mid y hy => ?_,
      fun y hy => @body_of_insert _ _ (· = .started) _ _ he hbody hy⟩
    rw [hm] at hy
    obtain ⟨-, rfl⟩ | hy := Table.get_insert_cases hy
    · exact Or.inl (Or.inr hcontent)
    · obtain ⟨-, rfl⟩ | hy := Table.get_insert_cases hy
      · exact Or.inl (Or.inl hmu)
      · exact Or.inr ⟨y, hy, rfl⟩

theorem regenerate_written {now : Nat} {catalog : Catalog.CatalogRows}
    {tenantId actorUserId conversationId messageId : Nat}
    {clientRequestId requestHash : String} {x : AcceptedChatRequest × Store}
    (h : regenerate now catalog book tenantId actorUserId conversationId messageId
      clientRequestId requestHash s = .ok x) :
    Written (· = "") (· = .started) s x.2 := by
  simp only [regenerate, bind_eq_ok] at h
  obtain ⟨⟨idemId, idem, inserted, s₁⟩, hclaim, h⟩ := h
  obtain ⟨t, ht⟩ := claimIdempotency_ok hclaim
  simp only at ht h
  subst ht
  split at h
  · simp only [bind_eq_ok, pure_eq_ok] at h
    obtain ⟨-, -, rfl⟩ := h
    exact Written.congr rfl rfl
  · simp only [bind_eq_ok, pure_eq_ok] at h
    obtain ⟨c, -, -, -, target, -, latest, -, -, -, deploymentId, -, ⟨request, s₂⟩,
      happend, rfl⟩ := h
    simp only [appendRequestTransaction, bind_eq_ok, pure_eq_ok] at happend
    obtain ⟨decision, -, -, -, ⟨reservation, billing⟩, -, -, -, c₁, -, happend⟩ := happend
    obtain ⟨-, rfl⟩ := Prod.mk.inj happend
    -- the target is emptied, then linked to its new request
    have hemptied : Written (· = "") (· = .started) s
        { s with
          messages := s.messages.modify messageId fun m =>
            { m with status := .streaming, content := "", updatedAt := now }
          events := s.events.insert (startedEvent now s.requests.nextId s.nextUuid messageId
            { tenantId, actorUserId, conversationId
              productModelId := c.productModelId, deploymentId, userContent := none
              assistantMessageId := some messageId, requestHash
              parentRequestId := target.requestId }) } :=
      Written.modify rfl rfl (fun _ _ => Or.inl rfl) rfl
    refine hemptied.trans ⟨fun mid y hy => ?_, fun y hy => Or.inl hy⟩
    obtain ⟨rfl, y₀, hold, rfl⟩ | ⟨-, hold⟩ := Table.get_modify_cases hy
    · exact Or.inr ⟨y₀, hold, rfl⟩
    · exact Or.inr ⟨y, hold, rfl⟩

-- ================================================================== stop

theorem stopQueued_written {now : Nat} {cid id : Nat} {r : InferenceRequest}
    {x : Int × Store} (h : stopQueued now s cid id r = .ok x) :
    Written (fun _ => False) (· = .stopped) s x.2 := by
  -- the message keeps its text, whatever happens to its status
  have hmessages : ∀ messages : Table Message,
      messages = s.messages
        ∨ messages = s.messages.modify r.messageId
            (fun m => { m with status := .stopped, updatedAt := now }) →
      Written (fun _ => False) (· = .stopped) s
        (appendStoppedEvent now { s with messages } id r).1 := by
    intro messages hmessages
    have hkept : Written (fun _ => False) (· = .stopped) s { s with messages } := by
      refine ⟨fun mid y hy => ?_, fun y hy => Or.inl hy⟩
      obtain rfl | rfl := hmessages
      · exact Or.inr ⟨y, hy, rfl⟩
      · obtain ⟨rfl, y₀, hold, rfl⟩ | ⟨-, hold⟩ := Table.get_modify_cases hy
        · exact Or.inr ⟨y₀, hold, rfl⟩
        · exact Or.inr ⟨y, hold, rfl⟩
    unfold appendStoppedEvent
    simp only
    split
    · exact hkept
    · exact hkept.trans ⟨fun mid y hy => Or.inr ⟨y, hy, rfl⟩,
        fun y hy => @body_of_insert _ _ (· = .stopped) _ _ rfl rfl hy⟩
  cases hmfr : messageForRequest s r.tenantId r with
  | none =>
      simp only [stopQueued, hmfr, bind_eq_ok, pure_eq_ok] at h
      obtain ⟨s₂, hclear, rfl⟩ := h
      obtain ⟨c, -, -, rfl⟩ := clearActiveOnRow_ok hclear
      exact (hmessages _ (Or.inl rfl)).trans (Written.congr rfl rfl)
  | some m =>
      by_cases hst : m.status = .streaming
      · simp only [stopQueued, hmfr, hst, if_true, bind_eq_ok, pure_eq_ok] at h
        obtain ⟨s₂, hclear, rfl⟩ := h
        obtain ⟨c, -, -, rfl⟩ := clearActiveOnRow_ok hclear
        exact (hmessages _ (Or.inr rfl)).trans (Written.congr rfl rfl)
      · simp only [stopQueued, hmfr, hst, if_false, bind_eq_ok, pure_eq_ok] at h
        obtain ⟨s₂, hclear, rfl⟩ := h
        obtain ⟨c, -, -, rfl⟩ := clearActiveOnRow_ok hclear
        exact (hmessages _ (Or.inl rfl)).trans (Written.congr rfl rfl)

theorem stop_written {now tenantId actorUserId conversationId requestId : Nat}
    {x : StopResult × Store}
    (h : stop now tenantId actorUserId conversationId requestId s = .ok x) :
    Written (fun _ => False) (· = .stopped) s x.2 := by
  simp only [stop, bind_eq_ok] at h
  obtain ⟨c, -, ⟨id, r⟩, -, h⟩ := h
  split at h
  · by_cases hpointed : c.activeInferenceRequestId = some id
    · simp only [if_pos hpointed, bind_eq_ok, pure_eq_ok] at h
      obtain ⟨s₁, hclear, rfl⟩ := h
      obtain ⟨c₁, -, -, rfl⟩ := clearActiveOnRow_ok hclear
      exact Written.congr rfl rfl
    · simp only [if_neg hpointed, bind_eq_ok, pure_eq_ok] at h
      obtain ⟨s₁, rfl, rfl⟩ := h
      exact Written.congr rfl rfl
  · simp only [bind_eq_ok] at h
    obtain ⟨-, -, h⟩ := h
    split at h
    · simp only [bind_eq_ok, pure_eq_ok] at h
      obtain ⟨⟨sequence, s₁⟩, hstop, rfl⟩ := h
      exact stopQueued_written hstop
    · rw [pure_eq_ok] at h
      subst h
      exact Written.congr rfl rfl

-- ================================================================ worker

theorem appendDelta_written {ext now lockedNow : Nat} {seq : Int} {delta : String}
    {provider : Option String} {x : Option Int × Store}
    (h : appendDelta ext now lockedNow e seq delta provider s = .ok x) :
    Written ((Op.appendDelta ext now lockedNow e seq delta provider).texts s)
      ((Op.appendDelta ext now lockedNow e seq delta provider).bodies s) s x.2 := by
  simp only [appendDelta, bind_eq_ok, raiseIf_eq_ok] at h
  obtain ⟨-, hne, h⟩ := h
  split at h
  · rw [pure_eq_ok] at h
    subst h
    exact Written.congr rfl rfl
  · next r hfilter =>
      have hlock : lockedRequest s e = some r := by
        have hw := (Option.filter_eq_some_iff.mp hfilter).1
        exact (Option.filter_eq_some_iff.mp hw).1
      have hrun : r.status = .running := by simpa using (writable_of_filter hfilter).status
      split at h
      · rw [pure_eq_ok] at h
        subst h
        exact Written.congr rfl rfl
      · next m hmsg =>
          obtain ⟨hlocked, -⟩ := Option.filter_eq_some_iff.mp hmsg
          simp only [bind_eq_ok, pure_eq_ok] at h
          obtain ⟨-, -, rfl⟩ := h
          refine Written.modify rfl rfl (fun y hy => Or.inl ?_) ⟨rfl, hne, r, hlock, hrun⟩
          obtain rfl := Option.some.inj ((lockedMessage_some hlocked).1.symm.trans hy)
          exact ⟨r, m, hlock, hrun, hlocked, rfl⟩

theorem markCompleted_written {now lockedNow : Nat} {seq : Int} {content : String}
    {provider : Option String} {usage : TokenUsage} {x : Bool × Store}
    (h : markCompleted book now lockedNow e seq content provider usage s = .ok x) :
    Written (· = content) (· = .completed content) s x.2 := by
  unfold markCompleted at h
  split at h
  · rw [pure_eq_ok] at h
    subst h
    exact Written.congr rfl rfl
  · split at h
    · simp only [bind_eq_ok, pure_eq_ok] at h
      obtain ⟨price, -, charge, -, -, -, usageRecords, -, rfl⟩ := h
      exact Written.modify rfl rfl (fun _ _ => Or.inl rfl) rfl
    · rw [pure_eq_ok] at h
      subst h
      exact Written.congr rfl rfl

theorem terminalWithoutUsage_written {now lockedNow : Nat} {seq : Int} {t : Terminal}
    {x : Bool × Store} (h : terminalWithoutUsage now lockedNow e seq t s = .ok x) :
    Written (fun content => content = t.content ∧ content ≠ "")
      (fun b => ∃ r, b = t.body r) s x.2 := by
  unfold terminalWithoutUsage at h
  split at h
  · rw [pure_eq_ok] at h
    subst h
    exact Written.congr rfl rfl
  · next r hfilter =>
      split at h
      · simp only [bind_eq_ok, pure_eq_ok] at h
        obtain ⟨-, -, rfl⟩ := h
        refine Written.modify rfl rfl (fun y _ => ?_) ⟨r, rfl⟩
        by_cases hempty : t.content = ""
        · exact Or.inr (if_pos hempty).symm
        · exact Or.inl ⟨if_neg hempty, by rwa [show _ = t.content from if_neg hempty]⟩
      · rw [pure_eq_ok] at h
        subst h
        exact Written.congr rfl rfl

-- =============================================================== a sweep

theorem reconcileExpiredRow_written (now : Nat) (s : Store) (id : Nat) :
    Written (fun _ => False) (fun b => b = .stopped ∨ Blames "CHAT_LEASE_EXPIRED" b) s
      (reconcileExpiredRow now s id) := by
  unfold reconcileExpiredRow
  split
  · exact Written.congr rfl rfl
  · next r hr =>
      split
      · split
        · exact Written.modify rfl rfl (fun _ _ => Or.inr rfl)
            (Or.inr ⟨leaseExpiredError r, rfl, rfl, rfl⟩)
        · exact Written.modify rfl rfl (fun _ _ => Or.inr rfl) (Or.inl rfl)
      · exact Written.congr rfl rfl

theorem reconcileExpired_written (now : Nat) (ids : List Nat) (s : Store) :
    Written (fun _ => False) (fun b => b = .stopped ∨ Blames "CHAT_LEASE_EXPIRED" b) s
      (ids.foldl (reconcileExpiredRow now) s) := by
  induction ids generalizing s with
  | nil => exact Written.congr rfl rfl
  | cons id ids ih => exact (reconcileExpiredRow_written now s id).trans (ih _)

-- ============================================================== one step

/-- An operation says what it was asked to say. -/
theorem perform_written {op : Op} (h : op.perform book s = .ok s') :
    Written (op.texts s) (op.bodies s) s s' := by
  cases op with
  | create now catalog tenantId actorUserId key clientRequestId requestHash =>
      simp only [Op.perform, bind_eq_ok, pure_eq_ok] at h
      obtain ⟨x, hx, rfl⟩ := h
      obtain ⟨hm, he⟩ := create_silent hx
      exact Written.congr hm he
  | submit now catalog tenantId actorUserId conversationId content clientRequestId
      requestHash =>
      simp only [Op.perform, bind_eq_ok, pure_eq_ok] at h
      obtain ⟨x, hx, rfl⟩ := h
      exact submit_written hx
  | regenerate now catalog tenantId actorUserId conversationId messageId
      clientRequestId requestHash =>
      simp only [Op.perform, bind_eq_ok, pure_eq_ok] at h
      obtain ⟨x, hx, rfl⟩ := h
      exact regenerate_written hx
  | stop now tenantId actorUserId conversationId requestId =>
      simp only [Op.perform, bind_eq_ok, pure_eq_ok] at h
      obtain ⟨x, hx, rfl⟩ := h
      exact (stop_written hx).mono (fun _ ht => ht.elim) fun _ hb => hb
  | claimQueued now catalog locked workerId leaseSeconds tenantId requestId =>
      simp only [Op.perform, bind_eq_ok, pure_eq_ok] at h
      obtain ⟨x, hx, rfl⟩ := h
      obtain ⟨hm, he⟩ := claimQueued_silent hx
      exact Written.congr hm he
  | requeueClaimed now e =>
      simp only [Op.perform, pure_eq_ok] at h
      subst h
      unfold requeueClaimed
      split
      · exact Written.congr rfl rfl
      · exact Written.congr rfl rfl
  | checkLeaseAndStop ext now e =>
      simp only [Op.perform, pure_eq_ok] at h
      subst h
      obtain ⟨hm, he⟩ := checkLeaseAndStop_silent ext now e s
      exact Written.congr hm he
  | appendDelta ext now lockedNow e expectedSequence delta provider =>
      simp only [Op.perform, bind_eq_ok, pure_eq_ok] at h
      obtain ⟨x, hx, rfl⟩ := h
      exact appendDelta_written hx
  | markCompleted now lockedNow e expectedSequence content provider usage =>
      simp only [Op.perform, bind_eq_ok, pure_eq_ok] at h
      obtain ⟨x, hx, rfl⟩ := h
      exact markCompleted_written hx
  | markStopped now lockedNow e expectedSequence content =>
      simp only [Op.perform, bind_eq_ok, pure_eq_ok] at h
      obtain ⟨x, hx, rfl⟩ := h
      exact (terminalWithoutUsage_written hx).mono (fun _ ht => ht.1) fun _ hb => hb.choose_spec
  | markFailed now lockedNow e expectedSequence errorCode errorDetails provider =>
      simp only [Op.perform, bind_eq_ok, pure_eq_ok] at h
      obtain ⟨x, hx, rfl⟩ := h
      exact (terminalWithoutUsage_written hx).mono (fun _ ht => ht.2 ht.1)
        fun _ hb => ⟨_, hb.choose_spec, rfl, rfl⟩
  | markSubmittedUnknown now lockedNow e provider errorCode =>
      simp only [Op.perform, bind_eq_ok, pure_eq_ok] at h
      obtain ⟨x, hx, rfl⟩ := h
      exact (terminalWithoutUsage_written hx).mono (fun _ ht => ht.2 ht.1)
        fun _ hb => ⟨_, hb.choose_spec, rfl, rfl⟩
  | reconcileExpiredOnce now limit locked =>
      simp only [Op.perform, reconcileExpiredOnce, bind_eq_ok, pure_eq_ok] at h
      obtain ⟨-, -, rfl⟩ := h
      exact (reconcileExpired_written now _ s).mono (fun _ ht => ht.elim) fun _ hb => hb
  | billing call =>
      simp only [Op.perform, pure_eq_ok] at h
      subst h
      exact Written.congr rfl rfl

theorem step_written (book : Catalog.PriceBook) (s : Store) (op : Op) :
    Written (op.texts s) (op.bodies s) s (step book s op) := by
  unfold step
  split
  · next s' h => exact perform_written h
  · exact Written.congr rfl rfl

-- ============================================================= a process

/-- The call of the store a process stands at. -/
def Process.call (cfg : Config) (env : Env) (p : Process) (s : Store) : Option Op :=
  let now := p.clock + env.elapsed
  let lockedNow := now + env.wait
  let sequence := p.current.lastEventSequence + 1
  match p.pc with
  | .firstCheck | .secondCheck | .checkChunk _ | .finalCheck _ =>
      some (.checkLeaseAndStop cfg.leaseExtensionSeconds now p.current)
  | .requeue => some (.requeueClaimed now p.current)
  | .append chunk =>
      some (.appendDelta cfg.leaseExtensionSeconds now lockedNow p.current sequence
        chunk.delta p.providerRequestId)
  | .stopping point => some (.markStopped now lockedNow p.current sequence point.content)
  | .complete =>
      some (.markCompleted now lockedNow p.current sequence p.content p.providerRequestId
        (p.usage.getD {}))
  | .failing code details provider _ =>
      some (.markFailed now lockedNow p.current sequence
        (safeErrorCode code "CHAT_PROVIDER_ERROR") details provider)
  | .markingUnknown code provider =>
      some (.markSubmittedUnknown now lockedNow p.current provider
        (safeErrorCode code "CHAT_SUBMISSION_UNKNOWN"))
  | .releasing _ =>
      p.current.reservationId.map fun id =>
        .billing (.release now .none p.current.tenantId id)
  | .capture =>
      p.current.reservationId.map fun id =>
        .billing (.capture now .none (s.sources cfg.book)
          { tenantId := p.current.tenantId, reservationId := id
            usage := some (billingUsage (p.usage.getD {})) })
  | .begin | .prepare | .openStream | .next | .requeued | .ended => none

/-- A step of a process leaves the store alone, or it makes its call. -/
theorem workerStep_call (h : workerStep cfg env p s = (p', s')) :
    s' = s ∨ ∃ op, p.call cfg env s = some op ∧ s' = step cfg.book s op := by
  have hattempt : ∀ {β : Type} {call : Except ChatError (β × Store)} {b : Option β}
      (op : Op), p.call cfg env s = some op → attempt env.db s call = (b, s') →
      (∀ x s₁, call = .ok (x, s₁) → op.perform cfg.book s = .ok s₁) →
      s' = s ∨ ∃ op, p.call cfg env s = some op ∧ s' = step cfg.book s op := by
    intro β call b op hcall hb hop
    obtain ⟨-, rfl⟩ | ⟨x, hx, -⟩ := attempt_cases hb
    · exact Or.inl rfl
    · exact Or.inr ⟨op, hcall, (step_of_ok (hop x s' hx)).symm⟩
  have hsettle : ∀ {β : Type} {call : Billing.Call}
      {x : Except Billing.BillingError (β × Billing.Db)} {b : Option Unit},
      p.call cfg env s = some (.billing call) →
      attempt env.db s ((x.map fun y => ((), { s with billing := y.2 })).mapError
        ChatError.billing) = (b, s') →
      call.perform s.billing = (x.map fun y => y.2) →
      s' = s ∨ ∃ op, p.call cfg env s = some op ∧ s' = step cfg.book s op := by
    intro β call x b hcall hb hperform
    obtain ⟨-, rfl⟩ | ⟨u, hu, -⟩ := attempt_cases hb
    · exact Or.inl rfl
    · refine Or.inr ⟨_, hcall, ?_⟩
      cases x with
      | error e => cases hu
      | ok y =>
          obtain rfl : { s with billing := y.2 } = s' := by
            simpa [Except.map, Except.mapError] using hu
          simp only [step, Op.perform, Billing.step, hperform]
          rfl
  have hcheck : ∀ {region : Region} {content : String} {invalid : Pc}
      {go : Process → Process},
      p.call cfg env s = some (.checkLeaseAndStop cfg.leaseExtensionSeconds
        (p.clock + env.elapsed) p.current) →
      leaseCheck cfg env p s region content invalid go = (p', s') →
      s' = s ∨ ∃ op, p.call cfg env s = some op ∧ s' = step cfg.book s op := by
    intro region content invalid go hcall hleft
    obtain ⟨-, rfl | rfl⟩ | ⟨rfl, -⟩ | ⟨rfl, -⟩ | ⟨rfl, -⟩ := leaseCheck_cases hleft
    · exact Or.inl rfl
    all_goals exact Or.inr ⟨_, hcall, rfl⟩
  cases hpc : p.pc with
  | firstCheck | secondCheck | checkChunk | finalCheck =>
      simp only [workerStep, hpc] at h
      exact hcheck (by simp only [Process.call, hpc]) h
  | begin =>
      left
      simp only [workerStep, hpc] at h
      split_ifs at h
      all_goals
        obtain ⟨rfl, rfl⟩ := h
        rfl
  | openStream | requeued | ended =>
      simp only [workerStep, hpc] at h
      obtain ⟨rfl, rfl⟩ := h
      exact Or.inl rfl
  | prepare | next =>
      left
      simp only [workerStep, hpc] at h
      split_ifs at h
      · obtain ⟨rfl, rfl⟩ := h
        rfl
      · split at h
        all_goals
          obtain ⟨rfl, rfl⟩ := h
          rfl
  | requeue =>
      simp only [workerStep, hpc] at h
      split at h
      · obtain ⟨rfl, rfl⟩ := h
        exact Or.inl rfl
      · obtain ⟨rfl, rfl⟩ := h
        exact Or.inr ⟨.requeueClaimed _ p.current, by simp only [Process.call, hpc], rfl⟩
  | append chunk =>
      simp only [workerStep, hpc] at h
      split at h
      all_goals
        next hb =>
          obtain ⟨rfl, rfl⟩ := h
          refine hattempt _ (by simp only [Process.call, hpc]; rfl) hb fun x s₂ hx => ?_
          simp only [Op.perform, hx]
          rfl
  | stopping point =>
      simp only [workerStep, hpc] at h
      split at h
      all_goals
        next hb =>
          obtain ⟨rfl, rfl⟩ := h
          refine hattempt _ (by simp only [Process.call, hpc]; rfl) hb fun x s₂ hx => ?_
          simp only [Op.perform, hx]
          rfl
  | complete =>
      simp only [workerStep, hpc] at h
      split at h
      all_goals
        next hb =>
          obtain ⟨rfl, rfl⟩ := h
          refine hattempt _ (by simp only [Process.call, hpc]; rfl) hb fun x s₂ hx => ?_
          simp only [Op.perform, hx]
          rfl
  | failing code details provider reserved =>
      simp only [workerStep, hpc] at h
      split at h
      all_goals
        next hb =>
          obtain ⟨rfl, rfl⟩ := h
          refine hattempt _ (by simp only [Process.call, hpc]; rfl) hb fun x s₂ hx => ?_
          simp only [Op.perform, hx]
          rfl
  | markingUnknown code provider =>
      simp only [workerStep, hpc] at h
      obtain ⟨rfl, rfl⟩ := h
      refine hattempt _ (by simp only [Process.call, hpc]; rfl) rfl fun x s₂ hx => ?_
      simp only [Op.perform, hx]
      rfl
  | releasing region =>
      simp only [workerStep, hpc] at h
      split at h
      · obtain ⟨rfl, rfl⟩ := h
        exact Or.inl rfl
      · next reservationId hres =>
          split at h
          all_goals
            next hb =>
              obtain ⟨rfl, rfl⟩ := h
              exact hsettle (by simp only [Process.call, hpc, hres, Option.map_some]; rfl) hb rfl
  | capture =>
      simp only [workerStep, hpc] at h
      split at h
      · obtain ⟨rfl, rfl⟩ := h
        exact Or.inl rfl
      · next reservationId hres =>
          obtain ⟨rfl, rfl⟩ := h
          exact hsettle (by simp only [Process.call, hpc, hres, Option.map_some]; rfl) rfl rfl

end Mosaic.Chat
