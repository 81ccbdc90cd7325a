/-
The conversation reducer converges.

# Coherent snapshots

A client loads a snapshot of a conversation whose request is running and
then reads the request's events from the snapshot's cursor on. After
reconnects the same event may arrive again, an event may arrive early, and
events of other requests, messages or conversations may come in between.
`Coherent` says what the snapshot has to do with the log of the request.

# The argument

Bound to a message, the reducer is a consumer of that log in the sense of
`Lib.Consumes`: its cursor is the sequence after the last one accepted, it
takes the event at the cursor and leaves every other alone. That settles
the order of arrival. What the plain log makes of the message is then read
off one accepted event at a time (`content_run`).
-/
import Mosaic.Lib.Cursor
import Mosaic.Web.Reducer

namespace Mosaic.Web

open Lib
open Chat (JsString ClientBody ClientEvent)

variable {state : ConversationReducerState} {event : ClientEvent}
  {requestId conversationId messageId : JsString} {log : List ClientEvent}

-- =================================================================== logs

/-- The events of one request in order: numbered from 0, opened by
`started` and by that only. -/
structure EventLog (requestId conversationId messageId : JsString)
    (log : List ClientEvent) : Prop where
  request : ∀ e ∈ log, e.requestId = requestId
  conversation : ∀ e ∈ log, e.conversationId = conversationId
  message : ∀ e ∈ log, e.messageId = messageId
  sequence : ∀ (i : Nat) e, log[i]? = some e → e.sequence = i
  started : ∀ (i : Nat) e, log[i]? = some e → (e.body.isStarted = true ↔ i = 0)

/-- An event of another request, message or conversation. -/
def Foreign (requestId conversationId messageId : JsString) (e : ClientEvent) : Prop :=
  e.requestId ≠ requestId ∨ e.conversationId ≠ conversationId ∨ e.messageId ≠ messageId

/-- The text an event adds. -/
def deltaOf : ClientBody → JsString
  | .delta text => text
  | _ => []

/-- The text of the deltas among the events. -/
def deltas (events : List ClientEvent) : JsString := events.flatMap fun e => deltaOf e.body

/-- The events before the first that ends the request. -/
def untilTerminal (events : List ClientEvent) : List ClientEvent :=
  events.takeWhile fun e => !e.body.terminal

/-- The content a message with `content` has after the events: the deltas
follow, and a completed content replaces both. -/
def contentAfter (content : JsString) (events : List ClientEvent) : JsString :=
  match (events.find? fun e => e.body.terminal).map ClientEvent.body with
  | some (.completed text) => text
  | _ => content ++ deltas (untilTerminal events)

-- ============================================================== the cursor

/-- The sequence the reducer waits for. -/
def ConversationReducerState.next (state : ConversationReducerState) : Nat :=
  (state.lastSequence + 1).toNat

/-- The reducer follows the request in a message of the conversation. -/
structure Bound (requestId conversationId messageId : JsString)
    (state : ConversationReducerState) : Prop where
  request : state.requestId = some requestId
  conversation : state.conversation.conversationId = conversationId
  message : state.messageId = some messageId
  present : ∃ m ∈ state.conversation.messages, m.messageId = messageId
  sequence : -1 ≤ state.lastSequence

theorem Bound.next_eq (h : Bound requestId conversationId messageId state) :
    (state.next : Int) = state.lastSequence + 1 := by
  have := h.sequence
  exact Int.toNat_of_nonneg (by omega)

theorem EventLog.mine (h : EventLog requestId conversationId messageId log)
    (he : event ∈ log) : ¬ Foreign requestId conversationId messageId event := by
  simp [Foreign, h.request event he, h.conversation event he, h.message event he]

theorem EventLog.not_started (h : EventLog requestId conversationId messageId log)
    {i : Nat} (he : log[i]? = some event) (hi : i ≠ 0) : event.body.isStarted = false := by
  by_contra hc
  exact hi ((h.started i event he).mp (by simpa using hc))

/-- The index of the message the events name. -/
theorem Bound.index (h : Bound requestId conversationId messageId state) :
    ∃ i m, (state.conversation.messages.findIdx? fun m => m.messageId == messageId) = some i
      ∧ state.conversation.messages[i]? = some m ∧ m.messageId = messageId := by
  obtain ⟨m, hm, hid⟩ := h.present
  cases hfind : state.conversation.messages.findIdx? fun m => m.messageId == messageId with
  | none =>
      have := List.findIdx?_eq_none_iff.mp hfind m hm
      simp [hid] at this
  | some i =>
      obtain ⟨hlt, hp, -⟩ := List.findIdx?_eq_some_iff_getElem.mp hfind
      exact ⟨i, _, rfl, List.getElem?_eq_getElem hlt, by simpa using hp⟩

/-- An event that is not the next one of the request is ignored. -/
theorem reduce_ignored (h : Bound requestId conversationId messageId state)
    (hother : Foreign requestId conversationId messageId event
      ∨ event.sequence ≠ state.lastSequence + 1) :
    reduceConversation state event = state := by
  unfold reduceConversation
  by_cases hclosed : state.terminal = true
  · rw [if_pos hclosed]
  · rw [if_neg hclosed, h.message, h.request, h.conversation]
    refine if_pos ?_
    obtain (hreq | hconv | hmsg) | hseq := hother
    · exact Or.inl fun he => hreq (Option.some.inj he).symm
    · exact Or.inr (Or.inl hconv)
    · exact Or.inr (Or.inr (Or.inl hmsg))
    · exact Or.inr (Or.inr (Or.inr hseq))

/-- The opening event moves the cursor and nothing else. -/
theorem reduce_started (h : Bound requestId conversationId messageId state)
    (hopen : state.terminal = false)
    (hmine : ¬ Foreign requestId conversationId messageId event)
    (hfirst : state.lastSequence = -1) (hseq : event.sequence = 0)
    (hstarted : event.body.isStarted = true) :
    reduceConversation state event
      = { state with
          lastSequence := 0, terminal := false
          conversation := { state.conversation with activeRequestCursor := some 0 } } := by
  simp only [Foreign, not_or, not_not] at hmine
  unfold reduceConversation
  rw [if_neg (by simp [hopen]), h.message]
  dsimp only
  rw [if_neg (by simp [h.request, h.conversation, hmine.1, hmine.2.1, hmine.2.2, hseq, hfirst]),
    if_pos (by omega), if_neg (by simp [hseq, hstarted])]

/-- A later event is applied to the message it names. -/
theorem reduce_applied (h : Bound requestId conversationId messageId state)
    (hopen : state.terminal = false)
    (hmine : ¬ Foreign requestId conversationId messageId event)
    (hseq : event.sequence = state.lastSequence + 1) (hlater : 0 ≤ state.lastSequence)
    (hstarted : event.body.isStarted = false) {i : Nat}
    (hi : (state.conversation.messages.findIdx? fun m => m.messageId == messageId)
      = some i) :
    reduceConversation state event = applyEvent state event i := by
  simp only [Foreign, not_or, not_not] at hmine
  unfold reduceConversation
  rw [if_neg (by simp [hopen]), h.message]
  dsimp only
  have hpast : ¬ (event.sequence = 0 ∨ event.body.isStarted = true) := by
    rw [hstarted]
    rintro (hzero | hc)
    · omega
    · cases hc
  rw [if_neg (by simp [h.request, h.conversation, hmine.1, hmine.2.1, hmine.2.2, hseq]),
    if_neg (by omega), if_neg hpast, hi]

/-- What an event does to the message it is applied to. -/
theorem applyEvent_eq (state : ConversationReducerState) (i : Nat) (hstarted : event.body.isStarted = false) :
    ∃ change : ConversationMessage → ConversationMessage,
      applyEvent state event i = accept state event i (!event.body.terminal) change
      ∧ (∀ m, (change m).messageId = m.messageId)
      ∧ ∀ m, (change m).content = match event.body with
          | .completed content => content
          | body => m.content ++ deltaOf body := by
  unfold applyEvent
  cases hbody : event.body with
  | started => simp [hbody, ClientBody.isStarted] at hstarted
  | delta text => exact ⟨_, rfl, fun _ => rfl, fun _ => rfl⟩
  | completed content => exact ⟨_, rfl, fun _ => rfl, fun _ => rfl⟩
  | stopped => exact ⟨_, rfl, fun _ => rfl, fun m => (List.append_nil m.content).symm⟩
  | failed error => exact ⟨_, rfl, fun _ => rfl, fun m => (List.append_nil m.content).symm⟩

theorem Bound.accept (h : Bound requestId conversationId messageId state) {i : Nat}
    {active : Bool} {change : ConversationMessage → ConversationMessage}
    (hchange : ∀ m, (change m).messageId = m.messageId) (hseq : 0 ≤ event.sequence) :
    Bound requestId conversationId messageId (accept state event i active change) where
  request := h.request
  conversation := h.conversation
  message := h.message
  present := by
    obtain ⟨m, hm, hid⟩ := h.present
    obtain ⟨k, hk⟩ := List.getElem?_of_mem hm
    by_cases hik : i = k
    · refine ⟨{ change m with requestId := state.requestId }, ?_, (hchange m).trans hid⟩
      refine List.mem_of_getElem? (i := k) ?_
      simp only [Web.accept, List.getElem?_modify, if_pos hik, hk]
      rfl
    · refine ⟨m, List.mem_of_getElem? (i := k) ?_, hid⟩
      simp only [Web.accept, List.getElem?_modify, if_neg hik, hk]
      rfl
  sequence := by
    show -1 ≤ event.sequence
    omega

/-- The event at the cursor is accepted: the cursor moves past it and the
reducer stays bound. -/
theorem reduce_next (hlog : EventLog requestId conversationId messageId log)
    (h : Bound requestId conversationId messageId state) (hopen : state.terminal = false)
    (hentry : log[state.next]? = some event) :
    (reduceConversation state event).lastSequence = state.lastSequence + 1
      ∧ Bound requestId conversationId messageId (reduceConversation state event) := by
  have hmem := List.mem_of_getElem? hentry
  have hmine := hlog.mine hmem
  have hnext := h.next_eq
  have hseq := hlog.sequence _ event hentry
  have hstarted := hlog.started _ event hentry
  by_cases hfirst : state.lastSequence = -1
  · rw [reduce_started h hopen hmine hfirst (by omega) (hstarted.mpr (by omega))]
    refine ⟨by simp [hfirst], h.request, h.conversation, h.message, h.present, ?_⟩
    show -1 ≤ (0 : Int)
    decide
  · have hlater : 0 ≤ state.lastSequence := by have := h.sequence; omega
    have hnot := hlog.not_started hentry (by omega)
    obtain ⟨i, m, hi, -, -⟩ := h.index
    rw [reduce_applied h hopen hmine (hseq.trans hnext) hlater hnot hi]
    obtain ⟨change, heq, hchange, -⟩ := applyEvent_eq state i hnot
    rw [heq]
    exact ⟨hseq.trans hnext, h.accept hchange (by omega)⟩

/-- Bound to a message, the reducer consumes the log of its request. -/
theorem consumes (hlog : EventLog requestId conversationId messageId log) :
    Consumes reduceConversation ConversationReducerState.next (fun s => s.terminal = true) log
      (fun e => e ∈ log ∨ Foreign requestId conversationId messageId e)
      (Bound requestId conversationId messageId) := by
  -- an event that is not at the cursor is none the reducer takes
  have hother : ∀ s e, Bound requestId conversationId messageId s →
      e ∈ log ∨ (e ∈ log ∨ Foreign requestId conversationId messageId e) →
      log[s.next]? ≠ some e → reduceConversation s e = s := by
    intro s e hs he hne
    have he : e ∈ log ∨ Foreign requestId conversationId messageId e := by tauto
    obtain he | he := he
    · refine reduce_ignored hs (Or.inr fun hseq => hne ?_)
      obtain ⟨i, hi⟩ := List.getElem?_of_mem he
      have hs' := hs.sequence
      have hat : s.next = i := by
        have := hlog.sequence i e hi
        unfold ConversationReducerState.next
        omega
      rw [hat, hi]
    · exact reduce_ignored hs (Or.inl he)
  have hshut : ∀ s e, s.terminal = true → reduceConversation s e = s := by
    intro s e hs
    unfold reduceConversation
    rw [if_pos hs]
  have hcursor : ∀ s e, Bound requestId conversationId messageId s → s.terminal = false →
      log[s.next]? = some e → (reduceConversation s e).next = s.next + 1 := by
    intro s e hs hopen hentry
    have := (reduce_next hlog hs hopen hentry).1
    have := hs.sequence
    unfold ConversationReducerState.next
    omega
  refine ⟨fun s e hs he => ?_, hshut, fun s e hs he => ?_, fun s e hs hopen hentry => ?_⟩
  · by_cases hclosed : s.terminal = true
    · rw [hshut s e hclosed]
      exact hs
    · by_cases hentry : log[s.next]? = some e
      · exact (reduce_next hlog hs (by simpa using hclosed) hentry).2
      · rw [hother s e hs he hentry]
        exact hs
  · by_cases hclosed : s.terminal = true
    · exact Or.inl (hshut s e hclosed)
    · by_cases hentry : log[s.next]? = some e
      · exact Or.inr ⟨hentry, hcursor s e hs (by simpa using hclosed) hentry⟩
      · exact Or.inl (hother s e hs he hentry)
  · exact hcursor s e hs (by simpa using hopen) hentry

-- ============================================================= the content

theorem contentAfter_terminal (content : JsString) {e : ClientEvent}
    (he : e.body.terminal = true) (rest : List ClientEvent) :
    contentAfter content (e :: rest) = match e.body with
      | .completed text => text
      | _ => content := by
  have hfind : (e :: rest).find? (fun e => e.body.terminal) = some e := by simp [he]
  unfold contentAfter untilTerminal
  rw [hfind, List.takeWhile_cons_of_neg (by simp [he])]
  cases hbody : e.body with
  | started => simp [hbody, ClientBody.terminal] at he
  | delta text => simp [hbody, ClientBody.terminal] at he
  | completed text => simp [hbody]
  | stopped => simp [hbody, deltas]
  | failed error => simp [hbody, deltas]

theorem contentAfter_open (content : JsString) {e : ClientEvent}
    (he : e.body.terminal = false) (rest : List ClientEvent) :
    contentAfter content (e :: rest) = contentAfter (content ++ deltaOf e.body) rest := by
  have hfind : (e :: rest).find? (fun e => e.body.terminal)
      = rest.find? fun e => e.body.terminal := by simp [he]
  unfold contentAfter untilTerminal
  rw [hfind, List.takeWhile_cons_of_pos (by simp [he])]
  split
  · rfl
  · simp [deltas, List.append_assoc]

/-- The message of the conversation with the id. -/
def messageOf (state : ConversationReducerState) (messageId : JsString) :
    Option ConversationMessage :=
  state.conversation.messages.find? fun m => m.messageId == messageId

/-- Rewriting the element a search finds, in a way the search cannot see. -/
theorem find_modify {α : Type} {p : α → Bool} {f : α → α} {l : List α} {i : Nat} {x : α}
    (hf : ∀ x, p (f x) = p x) (hi : l.findIdx? p = some i) (hx : l.find? p = some x) :
    (l.modify i f).find? p = some (f x) := by
  induction l generalizing i with
  | nil => cases hx
  | cons y l ih =>
      by_cases hy : p y = true
      · rw [List.findIdx?_cons, if_pos hy] at hi
        rw [List.find?_cons_of_pos hy] at hx
        obtain rfl := Option.some.inj hi
        obtain rfl := Option.some.inj hx
        rw [List.modify_zero_cons, List.find?_cons_of_pos (by rw [hf]; exact hy)]
      · rw [List.findIdx?_cons, if_neg hy] at hi
        rw [List.find?_cons_of_neg hy] at hx
        obtain ⟨j, hj, rfl⟩ := Option.map_eq_some_iff.mp hi
        rw [List.modify_succ_cons, List.find?_cons_of_neg hy]
        exact ih hj hx

/-- What the event at the cursor does to the message of the request. -/
theorem reduce_content (hlog : EventLog requestId conversationId messageId log)
    (h : Bound requestId conversationId messageId state) (hopen : state.terminal = false)
    (hentry : log[state.next]? = some event) {m : ConversationMessage}
    (hm : messageOf state messageId = some m) :
    (reduceConversation state event).terminal = event.body.terminal
      ∧ ∃ m', messageOf (reduceConversation state event) messageId = some m'
        ∧ m'.content = match event.body with
          | .completed content => content
          | body => m.content ++ deltaOf body := by
  have hmem := List.mem_of_getElem? hentry
  have hmine := hlog.mine hmem
  have hnext := h.next_eq
  have hseq := hlog.sequence _ event hentry
  have hstarted := hlog.started _ event hentry
  by_cases hfirst : state.lastSequence = -1
  · have hstart : event.body.isStarted = true := hstarted.mpr (by omega)
    rw [reduce_started h hopen hmine hfirst (by omega) hstart]
    cases hbody : event.body with
    | started => exact ⟨rfl, m, hm, (List.append_nil m.content).symm⟩
    | delta text => simp [hbody, ClientBody.isStarted] at hstart
    | completed content => simp [hbody, ClientBody.isStarted] at hstart
    | stopped => simp [hbody, ClientBody.isStarted] at hstart
    | failed error => simp [hbody, ClientBody.isStarted] at hstart
  · have hnot := hlog.not_started hentry (by omega)
    obtain ⟨i, -, hi, -, -⟩ := h.index
    have hlater : 0 ≤ state.lastSequence := by have := h.sequence; omega
    rw [reduce_applied h hopen hmine (hseq.trans hnext) hlater hnot hi]
    obtain ⟨change, heq, hchange, hcontent⟩ := applyEvent_eq state i hnot
    rw [heq]
    refine ⟨by simp [accept], { change m with requestId := state.requestId }, ?_, hcontent m⟩
    refine find_modify (f := fun m => { change m with requestId := state.requestId })
      (fun m => ?_) hi hm
    rw [hchange]

/-- What a stretch of the log from the cursor on makes of the message. -/
theorem content_run (hlog : EventLog requestId conversationId messageId log)
    {events : List ClientEvent} (h : Bound requestId conversationId messageId state)
    (hopen : state.terminal = false) (hevents : events <+: log.drop state.next)
    {m : ConversationMessage} (hm : messageOf state messageId = some m) :
    ((run reduceConversation state events).terminal = true
        ↔ ∃ e ∈ events, e.body.terminal = true)
      ∧ ∃ m', messageOf (run reduceConversation state events) messageId = some m'
        ∧ m'.content = contentAfter m.content events := by
  induction events generalizing state m with
  | nil => simp [hopen, hm, contentAfter, untilTerminal, deltas]
  | cons e events ih =>
      have hentry : log[state.next]? = some e := by
        obtain ⟨post, hpost⟩ := hevents
        rw [← List.head?_drop, ← hpost]
        rfl
      obtain ⟨hterminal, m', hm', hcontent⟩ := reduce_content hlog h hopen hentry hm
      rw [run_cons]
      by_cases he : e.body.terminal = true
      · -- the request is over: the rest changes nothing
        rw [(consumes hlog).run_shut (hterminal.trans he)]
        refine ⟨⟨fun _ => ⟨e, List.mem_cons_self, he⟩, fun _ => hterminal.trans he⟩, m', hm', ?_⟩
        rw [hcontent, contentAfter_terminal _ he]
        cases hbody : e.body with
        | started => simp [hbody, ClientBody.terminal] at he
        | delta text => simp [hbody, ClientBody.terminal] at he
        | completed text => rfl
        | stopped => exact List.append_nil _
        | failed error => exact List.append_nil _
      · have he : e.body.terminal = false := by simpa using he
        obtain ⟨hseq, hbound⟩ := reduce_next hlog h hopen hentry
        have hrest : events <+: log.drop (reduceConversation state e).next := by
          have hnext := (consumes hlog).takes state e h (by simp [hopen]) hentry
          rw [hnext]
          obtain ⟨post, hpost⟩ := hevents
          refine ⟨post, ?_⟩
          rw [← List.drop_drop, ← hpost]
          rfl
        obtain ⟨hiff, m'', hm'', hcontent'⟩ :=
          ih hbound (hterminal.trans he) hrest hm'
        refine ⟨hiff.trans ?_, m'', hm'', ?_⟩
        · simp [he]
        · rw [hcontent', contentAfter_open _ he, hcontent]
          cases hbody : e.body with
          | started => rfl
          | delta text => rfl
          | completed text => simp [hbody, ClientBody.terminal] at he
          | stopped => rfl
          | failed error => rfl

-- ============================================================ convergence

/-- The cursor of a snapshot: the sequence it was taken after, -1 before
the first event. -/
def Conversation.cursor (snapshot : Conversation) : Int :=
  snapshot.activeRequestCursor.getD (-1)

/-- What the snapshot leaves of the log to read. -/
def Conversation.remaining (snapshot : Conversation) (log : List ClientEvent) :
    List ClientEvent :=
  log.drop (snapshot.cursor + 1).toNat

/-- The snapshot of a conversation whose request is running, taken at its
cursor: `m` is the request's message and holds the deltas so far. -/
structure Coherent (snapshot : Conversation) (requestId : JsString)
    (m : ConversationMessage) (log : List ClientEvent) : Prop where
  active : snapshot.activeRequestId = some requestId
  cursor : -1 ≤ snapshot.cursor
  events : EventLog requestId snapshot.conversationId m.messageId log
  message : m ∈ snapshot.messages
  role : m.role = .assistant
  status : m.status = .streaming
  request : m.requestId = some requestId
  content : m.content = deltas (log.take (snapshot.cursor + 1).toNat)
  /-- It is the one message of the request. -/
  only : ∀ m' ∈ snapshot.messages, m'.role = .assistant →
    m'.requestId = some requestId → m' = m
  /-- Messages are told apart by their ids. -/
  ids : (snapshot.messages.map (·.messageId)).Nodup

theorem Coherent.found {snapshot : Conversation} {m : ConversationMessage}
    (h : Coherent snapshot requestId m log) :
    findStreamingAssistant snapshot (some requestId) = some m := by
  show snapshot.messages.find? _ = some m
  cases hfind : snapshot.messages.find? fun message =>
      message.role == .assistant && message.status == .streaming
        && message.requestId == some requestId with
  | none =>
      have := List.find?_eq_none.mp hfind m h.message
      simp [h.role, h.status, h.request] at this
  | some m' =>
      have hp := List.find?_some hfind
      simp only [Bool.and_eq_true, beq_iff_eq] at hp
      rw [h.only m' (List.mem_of_find?_eq_some hfind) hp.1.1 hp.2]

/-- The reducer starts bound to the message of the request. -/
theorem Coherent.bound {snapshot : Conversation} {m : ConversationMessage}
    (h : Coherent snapshot requestId m log) :
    Bound requestId snapshot.conversationId m.messageId
      (createConversationReducerState snapshot) where
  request := h.active
  conversation := rfl
  message := by
    show (findStreamingAssistant snapshot snapshot.activeRequestId).map (·.messageId)
      = some m.messageId
    rw [h.active, h.found]
    rfl
  present := ⟨m, h.message, rfl⟩
  sequence := h.cursor

theorem Coherent.messageOf {snapshot : Conversation} {m : ConversationMessage}
    (h : Coherent snapshot requestId m log) :
    Web.messageOf (createConversationReducerState snapshot) m.messageId = some m := by
  cases hfind : Web.messageOf (createConversationReducerState snapshot) m.messageId with
  | none =>
      have := List.find?_eq_none.mp hfind m h.message
      simp at this
  | some m' =>
      have hid := List.find?_some hfind
      have hmem := List.mem_of_find?_eq_some hfind
      rw [List.inj_on_of_nodup_map h.ids hmem h.message (by simpa using hid)]

/-- However the rest of the log reaches a client with a coherent snapshot,
it ends in the state the plain rest leads to; the message then holds its
content at the cursor and the later deltas, or the completed content; and
nothing after the event that ends the request makes a difference. -/
theorem reduceConversation_converges {snapshot : Conversation} {requestId : JsString}
    {m : ConversationMessage} {log events : List ClientEvent}
    (h : Coherent snapshot requestId m log)
    (hevents : Padded
      (fun e => e ∈ log ∨ Foreign requestId snapshot.conversationId m.messageId e)
      (snapshot.remaining log) events) :
    let start := createConversationReducerState snapshot
    let final := run reduceConversation start events
    final = run reduceConversation start (snapshot.remaining log)
      ∧ (∃ m', messageOf final m.messageId = some m'
        ∧ m'.content = contentAfter m.content (snapshot.remaining log))
      ∧ (final.terminal = true ↔ ∃ e ∈ snapshot.remaining log, e.body.terminal = true)
      ∧ ∀ before e, before ++ [e] <+: snapshot.remaining log → e.body.terminal = true →
        ∀ after, run reduceConversation start (before ++ e :: after)
          = run reduceConversation start (before ++ [e]) := by
  intro start final
  have hopen : start.terminal = false := by
    show (snapshot.activeRequestId).isNone = false
    rw [h.active]
    rfl
  have hplain : final = run reduceConversation start (snapshot.remaining log) :=
    (consumes h.events).run_padded h.bound hevents
  obtain ⟨hterminal, hcontent⟩ :=
    content_run h.events h.bound hopen (List.prefix_refl _) h.messageOf
  rw [hplain]
  refine ⟨rfl, hcontent, hterminal, fun before e hbefore he after => ?_⟩
  have hover : (run reduceConversation start (before ++ [e])).terminal = true :=
    (content_run h.events h.bound hopen hbefore h.messageOf).1.mpr ⟨e, by simp, he⟩
  rw [List.append_cons, run_append]
  exact (consumes h.events).run_shut hover after

/-- A request with two deltas, read by a client that saw the first. -/
def sampleEvent (sequence : Int) (body : ClientBody) : ClientEvent :=
  { requestId := [1], conversationId := [2], messageId := [3], sequence, body }

def sampleLog : List ClientEvent :=
  [sampleEvent 0 .started, sampleEvent 1 (.delta [72]), sampleEvent 2 (.delta [105]),
    sampleEvent 3 (.completed [72, 105, 33])]

def sampleMessage : ConversationMessage :=
  { messageId := [3], role := .assistant, content := [72], status := .streaming
    createdAt := [], requestId := some [1] }

def sampleSnapshot : Conversation :=
  { conversationId := [2], productModelId := [], title := []
    messages := [{ sampleMessage with messageId := [4], role := .user, status := .complete
                                      requestId := none }, sampleMessage]
    updatedAt := [], activeRequestId := some [1], activeRequestCursor := some 1 }

/-- The second delta arrives after the completed event and twice, with an
event of another request in between. -/
theorem reduceConversation_converges_sample :
    Coherent sampleSnapshot [1] sampleMessage sampleLog
      ∧ run reduceConversation (createConversationReducerState sampleSnapshot)
          [sampleEvent 3 (.completed [72, 105, 33]), sampleEvent 2 (.delta [105]),
            { sampleEvent 3 .stopped with requestId := [9] }, sampleEvent 2 (.delta [105]),
            sampleEvent 3 (.completed [72, 105, 33])]
        = run reduceConversation (createConversationReducerState sampleSnapshot)
          [sampleEvent 2 (.delta [105]), sampleEvent 3 (.completed [72, 105, 33])] := by
  have hlog : EventLog [1] [2] [3] sampleLog := by
    refine ⟨by simp [sampleLog, sampleEvent], by simp [sampleLog, sampleEvent],
      by simp [sampleLog, sampleEvent], fun i e he => ?_, fun i e he => ?_⟩
    · have hlt : i < 4 := (List.getElem?_eq_some_iff.mp he).1
      interval_cases i <;> obtain rfl := Option.some.inj he <;> rfl
    · have hlt : i < 4 := (List.getElem?_eq_some_iff.mp he).1
      interval_cases i <;> obtain rfl := Option.some.inj he <;>
        simp [sampleEvent, ClientBody.isStarted]
  have hcoherent : Coherent sampleSnapshot [1] sampleMessage sampleLog :=
    { active := rfl, cursor := by decide, events := hlog
      message := by simp [sampleSnapshot], role := rfl, status := rfl, request := rfl
      content := rfl
      only := by simp [sampleSnapshot, sampleMessage]
      ids := by simp [sampleSnapshot, sampleMessage] }
  refine ⟨hcoherent, (reduceConversation_converges hcoherent ?_).1⟩
  have hforeign : Foreign [1] [2] [3] { sampleEvent 3 .stopped with requestId := [9] } := by
    simp [Foreign]
  refine .insert _ (Or.inl (by simp [sampleLog])) (.keep _ ?_)
  refine .insert _ (Or.inr hforeign) (.insert _ (Or.inl (by simp [sampleLog])) ?_)
  exact .keep _ .nil

-- ======================================================= the public helper

theorem ConversationObject.state_reduce (c : ConversationObject) (event : ClientEvent) :
    (reduceConversationEvent c event).state = reduceConversation c.state event := rfl

/-- Folding the public helper over conversations is folding the reducer
over its states. -/
theorem reduceConversationEvent_run (c : ConversationObject) (events : List ClientEvent) :
    (run reduceConversationEvent c events).state = run reduceConversation c.state events := by
  induction events generalizing c with
  | nil => rfl
  | cons e events ih => rw [run_cons, run_cons, ih, c.state_reduce]

end Mosaic.Web
