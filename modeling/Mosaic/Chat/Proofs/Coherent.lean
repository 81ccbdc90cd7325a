/-
Whether a client can resume from a snapshot.

# The claim

Whatever is committed between the three reads of a conversation: the answer
of its active request is shown as far as the cursor says, it names that
request, and the events after the cursor complete it (`Coherent`).

# Where it fails

The cursor is read after the answer, so a delta between the two reads is in
neither (`snapshot_incoherent`). And the request of a message is the newest
by its time of creation, which need not be the one it is linked to.

As long as the message read is linked to the request, these are the only
ways (`snapshot_coherent_iff`).
-/
import Mosaic.Chat.Proofs.Site
import Mosaic.Chat.Proofs.Told

namespace Mosaic.Chat

open Lib Providers

variable {cfg : Config} {w : World} {s s₂ s₃ : Store} {id tenantId cid : Nat}
  {r : InferenceRequest} {m : Message} {row : ConversationRow}
  {requests : List (Nat × InferenceRequest)} {record : ConversationRecord}

-- ============================================================= coherence

/-- The events up to a cursor, and those after it. -/
def upTo (cursor : Int) (log : List StreamEvent) : List StreamEvent :=
  log.filter fun e => e.sequenceNo ≤ cursor

def after (cursor : Int) (log : List StreamEvent) : List StreamEvent :=
  log.filter fun e => cursor < e.sequenceNo

/-- An order in which the third read may return its rows: the newest come
first, and of two of one time either. -/
structure Listed (tenantId cid : Nat) (s : Store)
    (requests : List (Nat × InferenceRequest)) : Prop where
  rows : requests.Perm (requestRows tenantId cid s)
  newest : requests.Pairwise fun a b => b.2.createdAt ≤ a.2.createdAt

/-- The message that is shown for a request can be resumed from the
cursor of the request. -/
structure Resumable (cfg : Config) (w : World) (id : Nat) (r : InferenceRequest)
    (shown : ConversationMessageRecord) : Prop where
  message : shown.messageId = r.messageId
  linked : shown.requestId = some r.requestId
  told : shown.content = deltas (upTo r.lastEventSequence (w.store.log id))
  /-- In every continuation, while the message still answers the request. -/
  resumes : ∀ acts m,
    (run (worldStep cfg) w acts).store.messages.get r.messageId = some m →
    m.requestId = some id →
    m.content = shown.content
      ++ deltas (after r.lastEventSequence ((run (worldStep cfg) w acts).store.log id))

/-- A snapshot whose requests were read in `w`, with `id` as its active
request. -/
structure Coherent (cfg : Config) (w : World) (id : Nat) (r : InferenceRequest)
    (record : ConversationRecord) : Prop where
  active : record.activeRequestId = some r.requestId
  cursor : record.activeRequestCursor = some r.lastEventSequence
  answer : ∃ shown ∈ record.messages, Resumable cfg w id r shown

/-- Between the second read and the third the request says nothing, and it
is the newest of those that answered into its message. -/
structure Steady (tenantId cid id : Nat) (r : InferenceRequest) (s₂ s₃ : Store) :
    Prop where
  silent : deltas (s₃.log id) = deltas (s₂.log id)
  newest : ∀ e ∈ requestRows tenantId cid s₃, e.2.messageId = r.messageId → e.1 ≠ id →
    e.2.createdAt < r.createdAt

-- ================================================================= logs

/-- A cursor divides a log at the length it was read at. -/
theorem LogWellFormed.upTo_eq {log log' : List StreamEvent} {r' : InferenceRequest}
    (h : LogWellFormed r log) (h' : LogWellFormed r' log') (hpre : log <+: log') :
    upTo r.lastEventSequence log' = log
      ∧ after r.lastEventSequence log' = log'.drop log.length := by
  have hcounter := h.counter
  constructor
  · have hbelow := h'.filter_below log.length
    rw [List.prefix_iff_eq_take.mp hpre, ← hbelow]
    refine List.filter_congr fun e _ => ?_
    simp only [decide_eq_decide]
    omega
  · rw [← h'.filter_from log.length]
    refine List.filter_congr fun e _ => ?_
    simp only [decide_eq_decide]
    omega

-- ============================================================= invariant

/-- Requests keep to their users whatever is done in a world. -/
theorem OwnerInv.act (h : OwnerInv w.store) (hstream : StreamInv cfg w) (a : Act) :
    OwnerInv (worldStep cfg w a).store := by
  cases hact : a.isParty with
  | true =>
      exact (worldStep_partyMove cfg hstream.fleet.chat hstream.bill hact).storeMove.ownerInv h
  | false =>
      cases a with
      | settle => exact ⟨h.owner, h.uuid, h.unique⟩
      | api | claim | work => cases hact

structure SnapshotInv (cfg : Config) (w : World) : Prop where
  stream : StreamInv cfg w
  retold : RetoldInv w
  turns : TranscriptInv w.store
  owner : OwnerInv w.store
  told : Told w.store

theorem SnapshotInv.chat (h : SnapshotInv cfg w) : ChatInv w.store := h.stream.fleet.chat

theorem SnapshotInv.act (h : SnapshotInv cfg w) (a : Act) :
    SnapshotInv cfg (worldStep cfg w a) := by
  have hacted := worldStep_acted cfg h.chat a
  obtain ⟨who, heff⟩ := worldStep_effects cfg h.chat a
  exact
    { stream := h.stream.acted hacted
      retold := h.retold.acted h.stream hacted
      turns := (heff.carry h.chat
        (fun hinv heff ht => TranscriptInv.effect ht hinv heff) h.turns).2
      owner := h.owner.act h.stream a
      told := h.told.act h.chat h.retold a }

theorem WorldOpening.snapshotInv (h : WorldOpening w)
    (hempty : w.store.messages = Table.empty) : SnapshotInv cfg w where
  stream := h.streamInv cfg
  retold := h.retoldInv
  turns := TranscriptInv.opening h.store hempty
  owner := by
    have hnone : ∀ id, w.store.requests.get id = none := fun id => h.store.get_requests
    exact ⟨by simp [hnone], by simp [hnone], by simp [hnone]⟩
  told := Told.opening h.store

theorem snapshotInv_run (cfg : Config) (h : WorldOpening w)
    (hempty : w.store.messages = Table.empty) (acts : List Act) :
    SnapshotInv cfg (run (worldStep cfg) w acts) :=
  run_invariant (fun _ a hinv => hinv.act a) (h.snapshotInv hempty) acts

-- =========================================================== third read

theorem newest_total (a b : Nat × InferenceRequest) :
    decide (b.2.createdAt ≤ a.2.createdAt) = true
      ∨ decide (a.2.createdAt ≤ b.2.createdAt) = true := by
  simp only [decide_eq_true_eq]
  omega

theorem newest_trans (a b c : Nat × InferenceRequest)
    (hab : decide (b.2.createdAt ≤ a.2.createdAt) = true)
    (hbc : decide (c.2.createdAt ≤ b.2.createdAt) = true) :
    decide (c.2.createdAt ≤ a.2.createdAt) = true := by
  simp only [decide_eq_true_eq] at hab hbc ⊢
  omega

/-- The read as it is modelled is one of the orders. -/
theorem listed_requestRows (tenantId cid : Nat) (s : Store) :
    Listed tenantId cid s (requestRows tenantId cid s) where
  rows := List.Perm.refl _
  newest := (Table.pairwise_ordered newest_total newest_trans).imp fun h => of_decide_eq_true h

theorem mem_requestRows {e : Nat × InferenceRequest} :
    e ∈ requestRows tenantId cid s ↔ s.requests.get e.1 = some e.2
      ∧ e.2.tenantId = tenantId ∧ e.2.conversationId = cid := by
  rw [requestRows, Table.mem_ordered, Bool.and_eq_true, beq_iff_eq, beq_iff_eq]

theorem Listed.mem (h : Listed tenantId cid s requests) {e : Nat × InferenceRequest} :
    e ∈ requests ↔ s.requests.get e.1 = some e.2
      ∧ e.2.tenantId = tenantId ∧ e.2.conversationId = cid := by
  rw [h.rows.mem_iff, mem_requestRows]

/-- The request that is named for a message is one of those that answered
into it. -/
theorem Listed.latest_cases (h : Listed tenantId cid s requests) {mid : Nat}
    (hr : s.requests.get id = some r) (htenant : r.tenantId = tenantId)
    (hcid : r.conversationId = cid) (hmid : r.messageId = mid) :
    ∃ x, requests.find? (fun e => e.2.messageId == mid) = some x
      ∧ latestRequestFor requests mid = some x.2.requestId
      ∧ s.requests.get x.1 = some x.2 ∧ x ∈ requestRows tenantId cid s
      ∧ x.2.messageId = mid := by
  have hmem : (id, r) ∈ requests := h.mem.mpr ⟨hr, htenant, hcid⟩
  cases hfind : requests.find? fun e => e.2.messageId == mid with
  | none =>
      have := List.find?_eq_none.mp hfind _ hmem
      simp [hmid] at this
  | some x =>
      have hx := List.mem_of_find?_eq_some hfind
      refine ⟨x, rfl, ?_, (h.mem.mp hx).1, h.rows.mem_iff.mp hx,
        by simpa using List.find?_some hfind⟩
      rw [latestRequestFor, hfind]
      rfl

/-- The newest request is named. -/
theorem Listed.latest (h : Listed tenantId cid s requests)
    (hr : s.requests.get id = some r) (htenant : r.tenantId = tenantId)
    (hcid : r.conversationId = cid)
    (hnewest : ∀ e ∈ requestRows tenantId cid s, e.2.messageId = r.messageId → e.1 ≠ id →
      e.2.createdAt < r.createdAt) :
    latestRequestFor requests r.messageId = some r.requestId := by
  obtain ⟨x, hfind, hnamed, hx, hrow, hmid⟩ := h.latest_cases hr htenant hcid rfl
  have hmem : (id, r) ∈ requests := h.mem.mpr ⟨hr, htenant, hcid⟩
  rw [hnamed]
  rcases Table.find?_before h.newest hfind hmem (by simp) with rfl | hbefore
  · rfl
  · by_cases hid : x.1 = id
    · rw [hid, hr] at hx
      rw [← Option.some.inj hx]
    · have hlt := hnewest x hrow hmid hid
      have hle : r.createdAt ≤ x.2.createdAt := hbefore
      omega

/-- The newest first, and of one time the row `k`. -/
def favouring (k : Nat) (a b : Nat × InferenceRequest) : Bool :=
  b.2.createdAt < a.2.createdAt
    || (b.2.createdAt == a.2.createdAt && (a.1 == k || b.1 != k))

theorem favouring_iff {k : Nat} {a b : Nat × InferenceRequest} :
    favouring k a b = true ↔ b.2.createdAt < a.2.createdAt
      ∨ (b.2.createdAt = a.2.createdAt ∧ (a.1 = k ∨ b.1 ≠ k)) := by
  simp [favouring]

/-- The third read in that order. -/
def favouredRows (tenantId cid : Nat) (s : Store) (k : Nat) : List (Nat × InferenceRequest) :=
  s.requests.ordered (favouring k) fun e =>
    e.2.tenantId == tenantId && e.2.conversationId == cid

theorem pairwise_favouredRows (tenantId cid : Nat) (s : Store) (k : Nat) :
    (favouredRows tenantId cid s k).Pairwise fun a b => favouring k a b = true := by
  apply Table.pairwise_ordered
  · intro a b
    rw [favouring_iff, favouring_iff]
    omega
  · intro a b c hab hbc
    rw [favouring_iff] at hab hbc ⊢
    omega

theorem listed_favouredRows (tenantId cid : Nat) (s : Store) (k : Nat) :
    Listed tenantId cid s (favouredRows tenantId cid s k) where
  rows := Table.perm_ordered
  newest := (pairwise_favouredRows tenantId cid s k).imp fun h => by
    rw [favouring_iff] at h
    omega

-- ================================================================= reads

/-- Messages of a transcript are the user's or the assistant's. -/
theorem TranscriptInv.shown (h : TranscriptInv s) {mid : Nat}
    (hm : s.messages.get mid = some m) : m.role.shown = true := by
  obtain ⟨k, hshape⟩ := h.shape m.conversationId
  have hmem : (mid, m) ∈ transcript s m.conversationId := mem_transcript.mpr ⟨hm, rfl⟩
  have hrole : m.role ∈ (turns k).map (·.2) := by
    rw [← hshape, places, List.map_map, List.map_map]
    exact List.mem_map.mpr ⟨(mid, m), hmem, rfl⟩
  rw [turns_roles, List.mem_flatten] at hrole
  obtain ⟨pair, hpair, hrole⟩ := hrole
  rw [List.eq_of_mem_replicate hpair] at hrole
  rcases List.mem_cons.mp hrole with huser | hassistant
  · rw [huser]
    rfl
  · rw [List.mem_singleton.mp hassistant]
    rfl

theorem mem_messageRows {e : Nat × Message} :
    e ∈ messageRows tenantId cid s ↔ s.messages.get e.1 = some e.2
      ∧ e.2.tenantId = tenantId ∧ e.2.conversationId = cid ∧ e.2.role.shown = true := by
  simp only [messageRows, Table.mem_ordered, Bool.and_eq_true, beq_iff_eq, and_assoc]

/-- The record of a conversation with an active request. -/
theorem materializeLoaded_eq {messages : List (Nat × Message)}
    (h : Listed tenantId cid s requests) (hr : s.requests.get id = some r)
    (htenant : r.tenantId = tenantId) (hcid : r.conversationId = cid)
    (hid : row.conversation.activeInferenceRequestId = some id) :
    materializeLoaded row tenantId messages requests = .ok
      { conversationId := row.conversationId, tenantId
        productModelId := row.product.modelKey, title := row.shownTitle
        messages := messages.map (messageRecord requests)
        updatedAt := row.conversation.updatedAt
        activeRequestId := some r.requestId
        activeRequestCursor := some r.lastEventSequence } := by
  have hmem : (id, r) ∈ requests := h.mem.mpr ⟨hr, htenant, hcid⟩
  have hfind : requests.find? (fun e => e.1 == id) = some (id, r) := by
    cases hfind : requests.find? fun e => e.1 == id with
    | none =>
        have := List.find?_eq_none.mp hfind _ hmem
        simp at this
    | some e =>
        have hkey : e.1 = id := by simpa using List.find?_some hfind
        have hget := (h.mem.mp (List.mem_of_find?_eq_some hfind)).1
        rw [hkey, hr] at hget
        rw [Option.some.inj hget, ← hkey]
  simp only [materializeLoaded, hid, hfind]
  rfl

/-- The reads of a conversation whose active request is `id`, with the
message that answers it as the second read finds it. -/
structure Reads (cfg : Config) (w₂ w₃ : World) (row : ConversationRow) (tenantId id : Nat)
    (r : InferenceRequest) (m : Message) : Prop where
  second : SnapshotInv cfg w₂
  third : SnapshotInv cfg w₃
  pointed : row.conversation.activeInferenceRequestId = some id
  request : w₃.store.requests.get id = some r
  tenant : r.tenantId = tenantId ∧ m.tenantId = tenantId
  conversation : r.conversationId = row.conversationId ∧ m.conversationId = row.conversationId
  message : w₂.store.messages.get r.messageId = some m
  linked : m.requestId = some id

variable {w₂ w₃ : World}

theorem Reads.materialized (h : Reads cfg w₂ w₃ row tenantId id r m)
    (hl : Listed tenantId row.conversationId w₃.store requests) :
    ∃ record, materializeLoaded row tenantId
        (messageRows tenantId row.conversationId w₂.store) requests = .ok record
      ∧ record.activeRequestId = some r.requestId
      ∧ record.activeRequestCursor = some r.lastEventSequence
      ∧ record.messages = (messageRows tenantId row.conversationId w₂.store).map
          (messageRecord requests) :=
  ⟨_, materializeLoaded_eq hl h.request h.tenant.1 h.conversation.1 h.pointed, rfl, rfl, rfl⟩

/-- The answer is among the messages, and is the only one with its id. -/
theorem Reads.shown_iff (h : Reads cfg w₂ w₃ row tenantId id r m)
    {shown : ConversationMessageRecord} :
    (shown ∈ (messageRows tenantId row.conversationId w₂.store).map (messageRecord requests)
        ∧ shown.messageId = r.messageId)
      ↔ shown = messageRecord requests (r.messageId, m) := by
  constructor
  · rintro ⟨hmem, hmid⟩
    obtain ⟨⟨mid, m'⟩, hrow, rfl⟩ := List.mem_map.mp hmem
    obtain rfl : mid = r.messageId := hmid
    obtain rfl := Option.some.inj (h.message.symm.trans (mem_messageRows.mp hrow).1)
    rfl
  · rintro rfl
    refine ⟨List.mem_map.mpr ⟨(r.messageId, m), ?_, rfl⟩, rfl⟩
    exact mem_messageRows.mpr
      ⟨h.message, h.tenant.2, h.conversation.2, h.second.turns.shown h.message⟩

/-- What the message says was logged before the second read. -/
theorem Reads.content (h : Reads cfg w₂ w₃ row tenantId id r m) :
    m.content = deltas (w₂.store.log id) :=
  h.second.told _ m id h.message h.linked

/-- Up to the cursor is as far as the log goes. -/
theorem Reads.upTo_cursor (h : Reads cfg w₂ w₃ row tenantId id r m) :
    upTo r.lastEventSequence (w₃.store.log id) = w₃.store.log id := by
  have hwf := h.third.chat.log.wellFormed id r h.request
  exact (LogWellFormed.upTo_eq hwf hwf List.prefix_rfl).1

theorem Reads.resumable (h : Reads cfg w₂ w₃ row tenantId id r m)
    (hsteady : Steady tenantId row.conversationId id r w₂.store w₃.store)
    (hl : Listed tenantId row.conversationId w₃.store requests) :
    Resumable cfg w₃ id r (messageRecord requests (r.messageId, m)) where
  message := rfl
  linked := hl.latest h.request h.tenant.1 h.conversation.1 hsteady.newest
  told := by
    rw [h.upTo_cursor, hsteady.silent]
    exact h.content
  resumes := by
    intro acts m' hm' hlink'
    have hlater : SnapshotInv cfg (run (worldStep cfg) w₃ acts) :=
      run_invariant (fun _ a hinv => hinv.act a) h.third acts
    obtain ⟨hpre, r', hr', -⟩ := logged_run cfg h.third.chat h.request acts
    have hwf := h.third.chat.log.wellFormed id r h.request
    have hwf' := hlater.chat.log.wellFormed id r' hr'
    rw [(LogWellFormed.upTo_eq hwf hwf' hpre).2, hlater.told _ m' id hm' hlink']
    show deltas _ = m.content ++ _
    rw [h.content, ← hsteady.silent, ← deltas_append]
    exact congrArg deltas (List.prefix_append_drop hpre)

/-- A coherent snapshot shows the answer as it can be resumed. -/
theorem Reads.of_coherent (h : Reads cfg w₂ w₃ row tenantId id r m)
    (hl : Listed tenantId row.conversationId w₃.store requests)
    (hcoherent : ∃ record, materializeLoaded row tenantId
        (messageRows tenantId row.conversationId w₂.store) requests = .ok record
      ∧ Coherent cfg w₃ id r record) :
    Resumable cfg w₃ id r (messageRecord requests (r.messageId, m)) := by
  obtain ⟨record, hrecord, hcoherent⟩ := hcoherent
  obtain ⟨record', hrecord', -, -, hmessages⟩ := h.materialized hl
  obtain rfl : record' = record := Except.ok.inj (hrecord'.symm.trans hrecord)
  obtain ⟨shown, hmem, hresumable⟩ := hcoherent.answer
  rw [hmessages] at hmem
  exact h.shown_iff.mp ⟨hmem, hresumable.message⟩ ▸ hresumable

theorem Reads.coherent_iff (h : Reads cfg w₂ w₃ row tenantId id r m) :
    (∀ requests, Listed tenantId row.conversationId w₃.store requests →
        ∃ record, materializeLoaded row tenantId
            (messageRows tenantId row.conversationId w₂.store) requests = .ok record
          ∧ Coherent cfg w₃ id r record)
      ↔ Steady tenantId row.conversationId id r w₂.store w₃.store := by
  constructor
  · intro hall
    constructor
    · have hl := listed_requestRows tenantId row.conversationId w₃.store
      have htold := (h.of_coherent hl (hall _ hl)).told
      rw [h.upTo_cursor] at htold
      exact htold.symm.trans h.content
    · intro e he hmid hne
      by_contra hlate
      -- the database may return `e` before the request
      have hl := listed_favouredRows tenantId row.conversationId w₃.store e.1
      have hsorted := pairwise_favouredRows tenantId row.conversationId w₃.store e.1
      have hlinked := (h.of_coherent hl (hall _ hl)).linked
      obtain ⟨x, hfind, hnamed, hx, -⟩ :=
        hl.latest_cases h.request h.tenant.1 h.conversation.1 rfl
      have hid : x.1 = id := by
        refine (h.third.owner.unique id x.1 r x.2 h.request hx ?_).symm
        exact Option.some.inj (hnamed.symm.trans hlinked)
      rw [hid, h.request] at hx
      obtain ⟨xid, xr⟩ := x
      obtain rfl : xid = id := hid
      obtain rfl := Option.some.inj hx
      have hmem := hl.mem.mpr (mem_requestRows.mp he)
      rcases Table.find?_before hsorted hfind hmem (by simp [hmid]) with rfl | hbefore
      · exact hne rfl
      · rw [favouring_iff] at hbefore
        simp only at hbefore
        omega
  · intro hsteady requests hl
    obtain ⟨record, hrecord, hactive, hcursor, hmessages⟩ := h.materialized hl
    refine ⟨record, hrecord, hactive, hcursor, _, ?_, h.resumable hsteady hl⟩
    rw [hmessages]
    exact (h.shown_iff.mpr rfl).1

-- ================================================================== runs

/-- The reads of a run, one after the other. -/
theorem reads_run (h : WorldOpening w) (hempty : w.store.messages = Table.empty)
    {as bs cs : List Act} {catalog : Catalog.CatalogRows} {title : Option String}
    {actorUserId conversationId : Nat}
    (hrow : conversationRow catalog title tenantId actorUserId conversationId
      (run (worldStep cfg) w as).store = some row)
    (hid : row.conversation.activeInferenceRequestId = some id)
    (hr : (run (worldStep cfg) w (as ++ bs ++ cs)).store.requests.get id = some r)
    (hm : (run (worldStep cfg) w (as ++ bs)).store.messages.get r.messageId = some m)
    (hlink : m.requestId = some id) :
    Reads cfg (run (worldStep cfg) w (as ++ bs)) (run (worldStep cfg) w (as ++ bs ++ cs)) row
      tenantId id r m := by
  have h₁ := snapshotInv_run cfg h hempty as
  have h₂ := snapshotInv_run cfg h hempty (as ++ bs)
  have h₃ := snapshotInv_run cfg h hempty (as ++ bs ++ cs)
  simp only [conversationRow, Option.bind_eq_bind, Option.bind_eq_some_iff, Option.pure_def,
    Option.some.injEq] at hrow
  obtain ⟨c, hc, product, -, rfl⟩ := hrow
  obtain ⟨hget, howner⟩ := Option.filter_eq_some_iff.mp hc
  simp only [Bool.and_eq_true, beq_iff_eq] at howner
  -- the request is in the conversation, and stays
  obtain ⟨r₁, hr₁, hcid, htenant, -⟩ := h₁.chat.pointer.sound conversationId c id hget hid
  obtain ⟨-, r', hr', hsame⟩ := logged_run cfg h₁.chat hr₁ (bs ++ cs)
  rw [← run_append, ← List.append_assoc, hr] at hr'
  obtain rfl := Option.some.inj hr'
  -- and so is its message
  obtain ⟨r₂, hr₂, -, hmcid, hmtenant⟩ := h₂.chat.link.owner _ m id hm hlink
  obtain ⟨-, r', hr', hsame₂⟩ := logged_run cfg h₂.chat hr₂ cs
  rw [← run_append, hr] at hr'
  obtain rfl := Option.some.inj hr'
  have hrtenant : r.tenantId = tenantId := hsame.tenantId.trans (htenant.trans howner.1)
  have hrcid : r.conversationId = conversationId := hsame.conversationId.trans hcid
  exact
    { second := h₂, third := h₃, pointed := hid, request := hr, message := hm, linked := hlink
      tenant := ⟨hrtenant, by rw [← hmtenant, ← hsame₂.tenantId, hrtenant]⟩
      conversation := ⟨hrcid, by rw [← hmcid, ← hsame₂.conversationId, hrcid]⟩ }

/-- In every run: a conversation with an active request is read, its row at
one moment, its messages at a later one and its requests at a later one
still. If the message read is linked to the request, then the snapshot is
coherent, in whatever order the requests are returned, if and only if the
request says nothing between the last two reads and is the newest of its
message. -/
theorem snapshot_coherent_iff (h : WorldOpening w)
    (hempty : w.store.messages = Table.empty) {as bs cs : List Act}
    {catalog : Catalog.CatalogRows} {title : Option String} {actorUserId conversationId : Nat}
    (hrow : conversationRow catalog title tenantId actorUserId conversationId
      (run (worldStep cfg) w as).store = some row)
    (hid : row.conversation.activeInferenceRequestId = some id)
    (hr : (run (worldStep cfg) w (as ++ bs ++ cs)).store.requests.get id = some r)
    (hm : (run (worldStep cfg) w (as ++ bs)).store.messages.get r.messageId = some m)
    (hlink : m.requestId = some id) :
    (∀ requests, Listed tenantId row.conversationId
          (run (worldStep cfg) w (as ++ bs ++ cs)).store requests →
        ∃ record, materializeLoaded row tenantId (messageRows tenantId row.conversationId
            (run (worldStep cfg) w (as ++ bs)).store) requests = .ok record
          ∧ Coherent cfg (run (worldStep cfg) w (as ++ bs ++ cs)) id r record)
      ↔ Steady tenantId row.conversationId id r (run (worldStep cfg) w (as ++ bs)).store
        (run (worldStep cfg) w (as ++ bs ++ cs)).store :=
  (reads_run h hempty hrow hid hr hm hlink).coherent_iff

-- =============================================================== sample

/-- A stream is open, and its first delta is about to be written. -/
def aboutToSpeak : List Act := sampleActs.take 10

theorem aboutToSpeak_row : ∃ row, conversationRow sampleCatalog none 1 2 0
      (run (worldStep sampleConfig) sampleWorld aboutToSpeak).store = some row
    ∧ row.conversationId = 0 ∧ row.conversation.activeInferenceRequestId = some 0 := by
  have hany : ((conversationRow sampleCatalog none 1 2 0
      (run (worldStep sampleConfig) sampleWorld aboutToSpeak).store).any fun row =>
        row.conversationId == 0 && row.conversation.activeInferenceRequestId == some 0)
      = true := by
    decide +kernel
  simpa [Option.any_eq_true] using hany

/-- The message is read there; the requests are read there too, or after
the delta. -/
theorem aboutToSpeak_reads {cs : List Act} (hcs : cs = [] ∨ cs = [sampleWork]) :
    ∃ r m, (run (worldStep sampleConfig) sampleWorld
        (aboutToSpeak ++ [] ++ cs)).store.requests.get 0 = some r
      ∧ (run (worldStep sampleConfig) sampleWorld
        (aboutToSpeak ++ [])).store.messages.get r.messageId = some m
      ∧ m.requestId = some 0 := by
  have hany : ((run (worldStep sampleConfig) sampleWorld
      (aboutToSpeak ++ [] ++ cs)).store.requests.get 0).any (fun r =>
        ((run (worldStep sampleConfig) sampleWorld
          (aboutToSpeak ++ [])).store.messages.get r.messageId).any fun m =>
            m.requestId == some 0) = true := by
    rcases hcs with rfl | rfl
    · decide +kernel
    · decide +kernel
  simpa [Option.any_eq_true] using hany

/-- The delta is in the log, and not in the message that was read. -/
theorem aboutToSpeak_spoken :
    deltas ((run (worldStep sampleConfig) sampleWorld
        (aboutToSpeak ++ [] ++ [sampleWork])).store.log 0) = "Hello"
      ∧ deltas ((run (worldStep sampleConfig) sampleWorld
        (aboutToSpeak ++ [])).store.log 0) = "" := by
  decide +kernel

/-- A snapshot before the delta is coherent, and one across it is not. -/
theorem snapshot_coherent_iff_sample :
    ∃ row, conversationRow sampleCatalog none 1 2 0
        (run (worldStep sampleConfig) sampleWorld aboutToSpeak).store = some row
      ∧ (∃ r, ∀ requests, Listed 1 row.conversationId (run (worldStep sampleConfig) sampleWorld
            (aboutToSpeak ++ [] ++ [])).store requests →
          ∃ record, materializeLoaded row 1 (messageRows 1 row.conversationId
              (run (worldStep sampleConfig) sampleWorld (aboutToSpeak ++ [])).store) requests
              = .ok record
            ∧ Coherent sampleConfig (run (worldStep sampleConfig) sampleWorld
              (aboutToSpeak ++ [] ++ [])) 0 r record)
      ∧ ∃ r, ¬ ∀ requests, Listed 1 row.conversationId (run (worldStep sampleConfig) sampleWorld
            (aboutToSpeak ++ [] ++ [sampleWork])).store requests →
          ∃ record, materializeLoaded row 1 (messageRows 1 row.conversationId
              (run (worldStep sampleConfig) sampleWorld (aboutToSpeak ++ [])).store) requests
              = .ok record
            ∧ Coherent sampleConfig (run (worldStep sampleConfig) sampleWorld
              (aboutToSpeak ++ [] ++ [sampleWork])) 0 r record := by
  obtain ⟨row, hrow, hcid, hid⟩ := aboutToSpeak_row
  refine ⟨row, hrow, ?_, ?_⟩
  · obtain ⟨r, m, hr, hm, hlink⟩ := aboutToSpeak_reads (Or.inl rfl)
    refine ⟨r, (snapshot_coherent_iff sampleWorld_opening rfl hrow hid hr hm hlink).mpr ?_⟩
    refine ⟨by rw [List.append_nil (aboutToSpeak ++ [])], fun e he _ hne => ?_⟩
    -- it is the only request
    have honly : ∀ e ∈ requestRows 1 0 (run (worldStep sampleConfig) sampleWorld
        (aboutToSpeak ++ [] ++ [])).store, e.1 = 0 := by
      decide +kernel
    rw [hcid] at he
    exact absurd (honly e he) hne
  · obtain ⟨r, m, hr, hm, hlink⟩ := aboutToSpeak_reads (Or.inr rfl)
    refine ⟨r, fun hall => ?_⟩
    have hsteady :=
      (snapshot_coherent_iff sampleWorld_opening rfl hrow hid hr hm hlink).mp hall
    have hsilent := hsteady.silent
    rw [aboutToSpeak_spoken.1, aboutToSpeak_spoken.2] at hsilent
    exact absurd hsilent (by decide)

/-- The delta is neither in the snapshot nor after its cursor. -/
theorem snapshot_incoherent :
    ¬ ∀ (cfg : Config) (w : World), WorldOpening w → w.store.messages = Table.empty →
      ∀ (as bs cs : List Act) (catalog : Catalog.CatalogRows) (title : Option String)
        (tenantId actorUserId conversationId : Nat) (row : ConversationRow) (id : Nat)
        (r : InferenceRequest),
        conversationRow catalog title tenantId actorUserId conversationId
          (run (worldStep cfg) w as).store = some row →
        row.conversation.activeInferenceRequestId = some id →
        (run (worldStep cfg) w (as ++ bs ++ cs)).store.requests.get id = some r →
        ∃ record, materialize row tenantId (run (worldStep cfg) w (as ++ bs)).store
            (run (worldStep cfg) w (as ++ bs ++ cs)).store = .ok record
          ∧ Coherent cfg (run (worldStep cfg) w (as ++ bs ++ cs)) id r record := by
  intro hclaim
  obtain ⟨row, hrow, -, hid⟩ := aboutToSpeak_row
  obtain ⟨r, m, hr, hm, hlink⟩ := aboutToSpeak_reads (Or.inr rfl)
  have hcoherent := hclaim sampleConfig sampleWorld sampleWorld_opening rfl aboutToSpeak []
    [sampleWork] sampleCatalog none 1 2 0 row 0 r hrow hid hr
  have hreads := reads_run sampleWorld_opening rfl hrow hid hr hm hlink
  have htold := (hreads.of_coherent (listed_requestRows _ _ _) hcoherent).told
  rw [hreads.upTo_cursor, aboutToSpeak_spoken.1] at htold
  have hcontent : m.content = "Hello" := htold
  rw [hreads.content, aboutToSpeak_spoken.2] at hcontent
  exact absurd hcontent (by decide)

end Mosaic.Chat
