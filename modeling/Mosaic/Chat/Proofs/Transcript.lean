/-
The transcript of a conversation, and the prompt built from it.

# The shape

`places` lists the messages of a conversation with what nothing rewrites:
key, sequence number and role. `TranscriptInv` says that the numbers run
`1..2k` with the roles in turn, that an active request answers into the
last message, and that a message is linked to the last request accepted
for it. An acceptance either appends a turn or reopens the last message;
every other effect leaves the places alone.

# The contents

A message that is not the last of its conversation is never written again
(`Earlier`), and a user's message says what the API validated
(`SpokenInv`). So the history a claim loads is the transcript, and the
prompt is what precedes the answer.
-/
import Mosaic.Chat.Prompt
import Mosaic.Chat.Proofs.Accounts
import Mosaic.Chat.Proofs.Wording

namespace Mosaic.Chat

open Lib Providers

variable {who : Caller} {s s' : Store} {id cid mid : Nat}
  {r r' : InferenceRequest} {c c' : Conversation} {m m' : Message}
  {book : Catalog.PriceBook}

-- ============================================================ transcript

/-- The messages of a conversation, with their keys. -/
def transcript (s : Store) (cid : Nat) : List (Nat × Message) :=
  s.messages.entries.filter fun e => e.2.conversationId == cid

/-- What stands where: key, sequence number and role. -/
def places (s : Store) (cid : Nat) : List (Nat × Nat × MessageRole) :=
  (transcript s cid).map fun e => (e.1, e.2.sequenceNo, e.2.role)

/-- The key of the last message. -/
def lastKey (s : Store) (cid : Nat) : Option Nat := ((places s cid).getLast?).map (·.1)

/-- `k` turns: a user's message and its answer, numbered from one. -/
def turns : Nat → List (Nat × MessageRole)
  | 0 => []
  | k + 1 => turns k ++ [(2 * k + 1, .user), (2 * k + 2, .assistant)]

theorem length_turns (k : Nat) : (turns k).length = 2 * k := by
  induction k with
  | zero => rfl
  | succ k ih =>
      simp only [turns, List.length_append, ih, List.length_cons, List.length_nil]
      omega

/-- The numbers are the positions, from one. -/
theorem turns_sequence (k : Nat) : (turns k).map (·.1) = List.range' 1 (2 * k) := by
  induction k with
  | zero => rfl
  | succ k ih =>
      have hcount : 2 * (k + 1) = 2 * k + 1 + 1 := by omega
      rw [turns, List.map_append, ih, hcount, List.range'_concat, List.range'_concat]
      simp only [List.map_cons, List.map_nil, List.append_assoc, List.cons_append,
        List.nil_append, List.append_cancel_left_eq, List.cons.injEq, and_true]
      omega

theorem turns_roles (k : Nat) :
    (turns k).map (·.2) = (List.replicate k [MessageRole.user, .assistant]).flatten := by
  induction k with
  | zero => rfl
  | succ k ih =>
      rw [turns, List.map_append, ih, List.replicate_succ', List.flatten_append]
      simp

/-- Whole turns end with an answer. -/
theorem getLast_turns {k : Nat} {x : Nat × MessageRole} (h : (turns k).getLast? = some x) :
    x.2 = .assistant := by
  cases k with
  | zero => cases h
  | succ k =>
      rw [turns, List.getLast?_append] at h
      obtain rfl := Option.some.inj h
      rfl

theorem mem_transcript {e : Nat × Message} :
    e ∈ transcript s cid ↔ s.messages.get e.1 = some e.2 ∧ e.2.conversationId = cid := by
  rw [transcript, List.mem_filter, Table.mem_entries, beq_iff_eq]

theorem transcript_congr (h : s'.messages = s.messages) :
    transcript s' cid = transcript s cid := by
  unfold transcript
  rw [h]

theorem places_congr (h : s'.messages = s.messages) : places s' cid = places s cid := by
  unfold places
  rw [transcript_congr h]

/-- A row rewritten in place keeps the places. -/
theorem places_replaced (h : Table.Replaced s.messages s'.messages mid m m')
    (hconv : m'.conversationId = m.conversationId)
    (hplace : m'.role = m.role ∧ m'.sequenceNo = m.sequenceNo) (cid : Nat) :
    places s' cid = places s cid :=
  h.query_eq (p := fun x => x.conversationId == cid)
    (f := fun x => (x.sequenceNo, x.role)) (by rw [hconv]) (by rw [hplace.1, hplace.2])

/-- A new row stands at the end of its conversation. -/
theorem transcript_insert {messages : Table Message} (x : Message)
    (h : s'.messages = messages.insert x) (cid : Nat) :
    transcript s' cid = (messages.entries.filter fun e => e.2.conversationId == cid)
      ++ if x.conversationId = cid then [(messages.nextId, x)] else [] := by
  unfold transcript
  rw [h, Table.entries_insert, List.filter_append]
  by_cases hx : x.conversationId = cid
  · simp [hx]
  · simp [hx]

-- ============================================================ invariant

structure TranscriptInv (s : Store) : Prop where
  /-- The places of a conversation are whole turns. -/
  shape : ∀ cid, ∃ k, (places s cid).map (·.2) = turns k
  /-- A message belongs to the tenant of its conversation. -/
  tenant : ∀ mid m, s.messages.get mid = some m →
    ∃ c, s.conversations.get m.conversationId = some c ∧ c.tenantId = m.tenantId
  /-- An active request answers into the last message. -/
  last : ∀ id r, s.requests.get id = some r → r.status.active = true →
    lastKey s r.conversationId = some r.messageId
  /-- A message is linked to the last request accepted for it. -/
  latest : ∀ mid m id, s.messages.get mid = some m → m.requestId = some id →
    ∀ id' r', s.requests.get id' = some r' → r'.messageId = mid → id' ≤ id

theorem TranscriptInv.opening (h : Opening s) (hempty : s.messages = Table.empty) :
    TranscriptInv s where
  shape := by
    intro cid
    refine ⟨0, ?_⟩
    simp [places, transcript, hempty, Table.empty, Table.entries, turns]
  tenant := by simp [hempty]
  last := by simp [h.get_requests]
  latest := by simp [hempty]

-- ============================================================ numbering

theorem transcript_numbers {k : Nat} (hshape : (places s cid).map (·.2) = turns k) :
    (transcript s cid).map (fun e => e.2.sequenceNo) = List.range' 1 (2 * k) := by
  rw [← turns_sequence, ← hshape, places, List.map_map, List.map_map]
  rfl

/-- The place with index `i` is numbered `i + 1`. -/
theorem sequence_of_getElem {k i : Nat} {x : Nat × Nat × MessageRole}
    (hshape : (places s cid).map (·.2) = turns k) (hx : (places s cid)[i]? = some x) :
    x.2.1 = i + 1 := by
  have hget : (List.range' 1 (2 * k))[i]? = some x.2.1 := by
    rw [← turns_sequence, ← hshape, List.getElem?_map, List.getElem?_map, hx]
    rfl
  obtain ⟨hi, heq⟩ := List.getElem?_eq_some_iff.mp hget
  simp only [List.getElem_range'] at heq
  omega

theorem length_places {k : Nat} (hshape : (places s cid).map (·.2) = turns k) :
    (places s cid).length = 2 * k := by
  have := congrArg List.length hshape
  rwa [List.length_map, length_turns] at this

/-- A place with the highest number is the last one. -/
theorem getLast_of_highest {k : Nat} {x : Nat × Nat × MessageRole}
    (hshape : (places s cid).map (·.2) = turns k) (hx : x ∈ places s cid)
    (hmax : ∀ y ∈ places s cid, y.2.1 ≤ x.2.1) : (places s cid).getLast? = some x := by
  obtain ⟨i, hi⟩ := List.getElem?_of_mem hx
  have hseq := sequence_of_getElem hshape hi
  have hlt := (List.getElem?_eq_some_iff.mp hi).1
  have hlast : (places s cid)[(places s cid).length - 1]?
      = some (places s cid)[(places s cid).length - 1] := List.getElem?_eq_getElem (by omega)
  have hle := hmax _ (List.mem_of_getElem? hlast)
  rw [sequence_of_getElem hshape hlast, hseq] at hle
  have hidx : (places s cid).length - 1 = i := by omega
  rw [List.getLast?_eq_getElem?, hidx, hi]

theorem foldl_max_range' (n a : Nat) : (List.range' 1 n).foldl max a = max a n := by
  induction n with
  | zero => simp
  | succ n ih =>
      rw [List.range'_concat, List.foldl_append, ih]
      simp only [List.foldl_cons, List.foldl_nil]
      omega

-- =============================================================== queries

/-- The queries of a conversation by tenant and key see its transcript. -/
theorem TranscriptInv.entries_eq (h : TranscriptInv s)
    (hc : s.conversations.get cid = some c) :
    (s.messages.entries.filter fun e =>
      e.2.tenantId == c.tenantId && e.2.conversationId == cid) = transcript s cid := by
  refine List.filter_congr fun e he => ?_
  by_cases hcid : e.2.conversationId = cid
  · obtain ⟨c₁, hc₁, hten⟩ := h.tenant e.1 e.2 (Table.mem_entries.mp he)
    rw [hcid] at hc₁
    obtain rfl := Option.some.inj (hc.symm.trans hc₁)
    simp [hten]
  · simp [hcid]

/-- `coalesce(max(sequence_no), 0)` counts the messages. -/
theorem TranscriptInv.maxSequence_eq (h : TranscriptInv s)
    (hc : s.conversations.get cid = some c) {k : Nat}
    (hshape : (places s cid).map (·.2) = turns k) :
    maxSequence s c.tenantId cid = 2 * k := by
  have hrows : (s.messages.rows.filter fun m =>
      m.tenantId == c.tenantId && m.conversationId == cid)
        = (transcript s cid).map (·.2) := by
    rw [← Table.entries_map_snd, List.filter_map, ← h.entries_eq hc]
    rfl
  rw [maxSequence, hrows, List.map_map, Function.comp_def, transcript_numbers hshape,
    foldl_max_range']
  omega

/-- A transcript stands in order. -/
theorem transcript_ordered {k : Nat} (hshape : (places s cid).map (·.2) = turns k) :
    (transcript s cid).Pairwise fun a b => a.2.sequenceNo ≤ b.2.sequenceNo := by
  rw [← List.pairwise_map (f := fun e : Nat × Message => e.2.sequenceNo),
    transcript_numbers hshape]
  exact List.pairwise_le_range'

/-- The history of a conversation is its transcript. -/
theorem TranscriptInv.history_eq (h : TranscriptInv s)
    (hc : s.conversations.get cid = some c) :
    history s c.tenantId cid = (transcript s cid).map fun e =>
      { messageId := e.1, role := e.2.role, content := e.2.content
        status := e.2.status, createdAt := e.2.createdAt } := by
  obtain ⟨k, hshape⟩ := h.shape cid
  have hrows := h.entries_eq hc
  rw [history, Table.ordered_eq, hrows]
  rw [hrows]
  refine (transcript_ordered hshape).imp fun hab => ?_
  exact decide_eq_true hab

/-- The latest message is the last one. -/
theorem TranscriptInv.lastKey_of_latest (h : TranscriptInv s)
    (hc : s.conversations.get cid = some c) {x : Message}
    (hlatest : latestMessage s c.tenantId cid = some (mid, x)) :
    lastKey s cid = some mid := by
  obtain ⟨k, hshape⟩ := h.shape cid
  have hmem : (mid, x) ∈ transcript s cid := by
    rw [← h.entries_eq hc]
    exact (List.mem_insertionSort _).mp (List.mem_of_mem_head? hlatest)
  have hplace : (mid, x.sequenceNo, x.role) ∈ places s cid := by
    rw [places, List.mem_map]
    exact ⟨(mid, x), hmem, rfl⟩
  rw [lastKey, getLast_of_highest hshape hplace]
  · rfl
  · intro y hy
    rw [places, List.mem_map] at hy
    obtain ⟨e, he, rfl⟩ := hy
    rw [← h.entries_eq hc] at he
    have hle := Table.ordered_head
      (fun a b => by simp only [decide_eq_true_eq]; omega)
      (fun a b c => by simp only [decide_eq_true_eq]; omega) hlatest he
    exact of_decide_eq_true hle

-- =============================================================== effects

/-- The places and the last message of the store a turn leaves behind. -/
structure Turned (s s' : Store) (cid mid : Nat) : Prop where
  shape : ∃ k, (places s' cid).map (·.2) = turns k
  last : lastKey s' cid = some mid
  other : ∀ j, j ≠ cid → places s' j = places s j

theorem TranscriptInv.submitted (h : TranscriptInv s) {tenantId : Nat} {mu : Message}
    (hc : s.conversations.get cid = some c) (hten : c.tenantId = tenantId)
    (hmessages : s'.messages = (s.messages.insert mu).insert m)
    (hmu : mu.conversationId = cid) (hm : m.conversationId = cid)
    (hrole : mu.role = .user ∧ m.role = .assistant)
    (hplace : mu.sequenceNo = maxSequence s tenantId cid + 1
      ∧ m.sequenceNo = maxSequence s tenantId cid + 2) :
    Turned s s' cid (s.messages.nextId + 1) := by
  obtain ⟨k, hshape⟩ := h.shape cid
  subst hten
  rw [h.maxSequence_eq hc hshape] at hplace
  have hplaces : places s' cid = places s cid
      ++ [(s.messages.nextId, 2 * k + 1, .user),
          (s.messages.nextId + 1, 2 * k + 2, .assistant)] := by
    rw [places, transcript_insert m hmessages, Table.entries_insert, List.filter_append]
    simp [places, transcript, hmu, hm, hrole, hplace]
  refine ⟨⟨k + 1, ?_⟩, ?_, fun j hj => ?_⟩
  · rw [hplaces, List.map_append, hshape]
    rfl
  · rw [lastKey, hplaces, List.getLast?_append]
    rfl
  · rw [places, transcript_insert m hmessages, Table.entries_insert, List.filter_append]
    simp [places, transcript, hmu, hm, hj.symm]

theorem TranscriptInv.turned (h : TranscriptInv s) {o : OutboxEvent} {e : StreamEvent}
    (ha : Accepted s s' cid mid c c' r m e o) : Turned s s' cid mid := by
  have hc := ha.conversations.old
  cases ha.turn with
  | submitted mu hmessages hmid howner hrole hplace hlink =>
      subst hmid
      exact h.submitted hc rfl hmessages howner.2 ha.messageOwner.2 hrole hplace
  | regenerated m₀ hmessages hlatest hrole hplace =>
      obtain ⟨x, hx⟩ := hlatest
      have hconv : m.conversationId = m₀.conversationId :=
        ha.messageOwner.2.trans (ha.messageOld m₀ hmessages.old).1.symm
      have hsame := places_replaced hmessages hconv
        ⟨hrole.2.trans hrole.1.symm, hplace⟩
      refine ⟨?_, ?_, fun j _ => hsame j⟩
      · rw [hsame cid]
        exact h.shape cid
      · rw [lastKey, hsame cid]
        exact h.lastKey_of_latest hc hx

theorem lastKey_congr (h : places s' cid = places s cid) :
    lastKey s' cid = lastKey s cid := by
  unfold lastKey
  rw [h]

theorem TranscriptInv.accepted (h : TranscriptInv s) (hinv : ChatInv s) {o : OutboxEvent}
    {e : StreamEvent} (ha : Accepted s s' cid mid c c' r m e o) : TranscriptInv s' where
  shape := by
    intro j
    by_cases hj : j = cid
    · subst hj
      exact (h.turned ha).shape
    · rw [(h.turned ha).other j hj]
      exact h.shape j
  tenant := by
    intro j x hx
    have hkept : ∀ {y}, s.conversations.get x.conversationId = some y →
        y.tenantId = x.tenantId → ∃ y', s'.conversations.get x.conversationId = some y'
          ∧ y'.tenantId = x.tenantId := by
      intro y hy hten
      by_cases hcid : x.conversationId = cid
      · rw [hcid] at hy ⊢
        obtain rfl := Option.some.inj (ha.conversations.old.symm.trans hy)
        exact ⟨c', ha.conversations.new, ha.tenant.trans hten⟩
      · exact ⟨y, (ha.conversations.other hcid).trans hy, hten⟩
    have hnew : x.tenantId = c.tenantId → x.conversationId = cid →
        ∃ y, s'.conversations.get x.conversationId = some y ∧ y.tenantId = x.tenantId := by
      intro hten hconv
      rw [hconv]
      exact ⟨c', ha.conversations.new, ha.tenant.trans hten.symm⟩
    have hanswer : m.tenantId = c.tenantId := ha.messageOwner.1.trans ha.requestTenant
    cases ha.turn with
    | submitted mu hmessages hmid howner hrole hplace hlink =>
        rw [hmessages] at hx
        obtain ⟨-, rfl⟩ | hx := Table.get_insert_cases hx
        · exact hnew hanswer ha.messageOwner.2
        · obtain ⟨-, rfl⟩ | hx := Table.get_insert_cases hx
          · exact hnew howner.1 howner.2
          · obtain ⟨y, hy, hten⟩ := h.tenant j x hx
            exact hkept hy hten
    | regenerated m₀ hmessages hlatest hrole hplace =>
        obtain ⟨-, rfl⟩ | ⟨-, hx⟩ := hmessages.cases hx
        · exact hnew hanswer ha.messageOwner.2
        · obtain ⟨y, hy, hten⟩ := h.tenant j x hx
          exact hkept hy hten
  last := by
    intro i y hy hact
    rw [ha.requests] at hy
    obtain ⟨-, rfl⟩ | hy := Table.get_insert_cases hy
    · rw [ha.requestConversation, ha.requestMessage]
      exact (h.turned ha).last
    · obtain ⟨x, hx, hp⟩ := hinv.pointer.complete i y hy hact
      have hne : y.conversationId ≠ cid := by
        -- the accepting conversation was idle
        intro heq
        rw [heq] at hx
        obtain rfl := Option.some.inj (ha.conversations.old.symm.trans hx)
        simp [ha.idle] at hp
      rw [lastKey_congr ((h.turned ha).other _ hne)]
      exact h.last i y hy hact
  latest := by
    intro j x i hx hlink i' y hy hmid
    rw [ha.requests] at hy
    by_cases hj : j = mid
    · subst hj
      obtain rfl := Option.some.inj (hx.symm.trans ha.message)
      rw [ha.messageLink] at hlink
      obtain rfl := Option.some.inj hlink
      have := Table.lt_nextId hy
      rw [Table.nextId_insert] at this
      omega
    · obtain hold | hnone := ha.messageOther j x hj hx
      · obtain ⟨-, rfl⟩ | hy := Table.get_insert_cases hy
        · exact absurd (hmid.symm.trans ha.requestMessage) hj
        · exact h.latest j x i hold hlink i' y hy hmid
      · simp [hnone] at hlink

/-- Rows rewritten in place, each within its own conversation. -/
theorem TranscriptInv.frame (h : TranscriptInv s)
    (hplaces : ∀ cid, places s' cid = places s cid)
    (hmessages : ∀ mid m', s'.messages.get mid = some m' →
      ∃ m, s.messages.get mid = some m ∧ m'.requestId = m.requestId
        ∧ m'.tenantId = m.tenantId ∧ m'.conversationId = m.conversationId)
    (hconversations : ∀ cid c, s.conversations.get cid = some c →
      ∃ c', s'.conversations.get cid = some c' ∧ c'.tenantId = c.tenantId)
    (hrequests : ∀ id r', s'.requests.get id = some r' →
      ∃ r, s.requests.get id = some r ∧ SameRequest r r'
        ∧ (r'.status.active = true → r.status.active = true)) : TranscriptInv s' where
  shape := by
    intro cid
    rw [hplaces cid]
    exact h.shape cid
  tenant := by
    intro mid m' hm'
    obtain ⟨m, hm, -, hten, hconv⟩ := hmessages mid m' hm'
    obtain ⟨c, hc, hct⟩ := h.tenant mid m hm
    obtain ⟨c', hc', hct'⟩ := hconversations _ c hc
    exact ⟨c', by rw [hconv, hc'], by rw [hct', hct, hten]⟩
  last := by
    intro id r' hr' hact
    obtain ⟨r, hr, hsame, hwas⟩ := hrequests id r' hr'
    rw [lastKey_congr (hplaces _), hsame.conversationId, hsame.messageId]
    exact h.last id r hr (hwas hact)
  latest := by
    intro mid m' id hm' hlink id' r' hr' hmid
    obtain ⟨m, hm, hreq, -⟩ := hmessages mid m' hm'
    obtain ⟨r, hr, hsame, -⟩ := hrequests id' r' hr'
    exact h.latest mid m id hm (hreq.symm.trans hlink) id' r hr
      (hsame.messageId.symm.trans hmid)

theorem replaced_request {j : Nat} (hrep : Table.Replaced s.requests s'.requests j r r')
    (hsame : SameRequest r r')
    (hactive : r'.status.active = true → r.status.active = true) {x : InferenceRequest}
    (hx : s'.requests.get id = some x) :
    ∃ y, s.requests.get id = some y ∧ SameRequest y x
      ∧ (x.status.active = true → y.status.active = true) := by
  obtain ⟨rfl, rfl⟩ | ⟨-, hx⟩ := hrep.cases hx
  · exact ⟨r, hrep.old, hsame, hactive⟩
  · exact ⟨x, hx, ⟨rfl, rfl, rfl, rfl, rfl, rfl, rfl⟩, fun ha => ha⟩

theorem replaced_message (hrep : Table.Replaced s.messages s'.messages mid m m')
    (hsame : m'.requestId = m.requestId ∧ m'.tenantId = m.tenantId
      ∧ m'.conversationId = m.conversationId) {j : Nat} {x : Message}
    (hx : s'.messages.get j = some x) :
    ∃ y, s.messages.get j = some y ∧ x.requestId = y.requestId
      ∧ x.tenantId = y.tenantId ∧ x.conversationId = y.conversationId := by
  obtain ⟨rfl, rfl⟩ | ⟨-, hx⟩ := hrep.cases hx
  · exact ⟨m, hrep.old, hsame⟩
  · exact ⟨x, hx, rfl, rfl, rfl⟩

theorem TranscriptInv.effect (h : TranscriptInv s) (hinv : ChatInv s)
    (heff : Effect who s s') : TranscriptInv s' := by
  have hconversations : ∀ cid c, s.conversations.get cid = some c →
      ∃ c', s'.conversations.get cid = some c' ∧ c'.tenantId = c.tenantId := by
    intro cid c hc
    obtain ⟨c', hc', hten, -⟩ := heff.same_conversation hc
    exact ⟨c', hc', hten⟩
  -- an effect that writes no message
  have hsilent : s'.messages = s.messages →
      (∀ id r', s'.requests.get id = some r' → ∃ r, s.requests.get id = some r
        ∧ SameRequest r r' ∧ (r'.status.active = true → r.status.active = true)) →
      TranscriptInv s' := by
    intro hm hr
    refine h.frame (fun _ => places_congr hm) (fun mid m hget => ?_) hconversations hr
    exact ⟨m, hm ▸ hget, rfl, rfl, rfl⟩
  cases heff with
  | quiet hq =>
      refine hsilent hq.messages fun id r hr => ?_
      exact ⟨r, hq.requests ▸ hr, ⟨rfl, rfl, rfl, rfl, rfl, rfl, rfl⟩, fun ha => ha⟩
  | opened c ho =>
      refine hsilent ho.messages fun id r hr => ?_
      exact ⟨r, ho.requests ▸ hr, ⟨rfl, rfl, rfl, rfl, rfl, rfl, rfl⟩, fun ha => ha⟩
  | accepted cid mid c c' r m e o ha => exact h.accepted hinv ha
  | moved id r r' hm hmove =>
      exact hsilent hm.messages fun j x hx =>
        replaced_request hm.requests hm.same (fun _ => hm.wasActive) hx
  | delta id r r' m m' e text hd =>
      exact h.frame (places_replaced hd.messages hd.messageSame.2.2 hd.messagePlace)
        (fun j x hx => replaced_message hd.messages hd.messageSame hx) hconversations
        (fun j x hx => replaced_request hd.requests hd.same
          (fun _ => by rw [hd.running.1]; rfl) hx)
  | ended id r r' c c' m m' e he =>
      exact h.frame (places_replaced he.messages he.messageSame.2.2 he.messagePlace)
        (fun j x hx => replaced_message he.messages he.messageSame hx) hconversations
        (fun j x hx => replaced_request he.requests he.same (fun _ => he.wasActive) hx)

-- ====================================================== earlier messages

/-- The message `m` is not the last of its conversation. -/
structure Earlier (mid : Nat) (m : Message) (s : Store) : Prop where
  get : s.messages.get mid = some m
  followed : lastKey s m.conversationId ≠ some mid

/-- The message an active request answers into is no earlier one. -/
theorem Earlier.ne_answer (he : Earlier mid m s) (h : TranscriptInv s) (hinv : ChatInv s)
    (hr : s.requests.get id = some r) (hact : r.status.active = true) :
    mid ≠ r.messageId := by
  rintro rfl
  obtain ⟨x, hx, -, -, -, hconv, -⟩ := hinv.link.linked id r hr hact
  obtain rfl := Option.some.inj (he.get.symm.trans hx)
  apply he.followed
  rw [hconv]
  exact h.last id r hr hact

/-- A row rewritten elsewhere. -/
theorem Earlier.replaced {j : Nat} {x x' : Message} (he : Earlier mid m s)
    (hrep : Table.Replaced s.messages s'.messages j x x')
    (hconv : x'.conversationId = x.conversationId)
    (hplace : x'.role = x.role ∧ x'.sequenceNo = x.sequenceNo) (hj : mid ≠ j) :
    Earlier mid m s' := by
  refine ⟨(hrep.other hj).trans he.get, ?_⟩
  rw [lastKey_congr (places_replaced hrep hconv hplace _)]
  exact he.followed

theorem Earlier.accepted (he : Earlier mid m s) (h : TranscriptInv s) {j : Nat}
    {x : Message} {e : StreamEvent} {o : OutboxEvent}
    (ha : Accepted s s' cid j c c' r x e o) : Earlier mid m s' := by
  have hj : mid ≠ j := by
    rintro rfl
    have hconv := (ha.messageOld m he.get).1
    cases ha.turn with
    | submitted mu hmessages hmid =>
        have := Table.lt_nextId he.get
        omega
    | regenerated m₀ hmessages hlatest =>
        obtain ⟨y, hy⟩ := hlatest
        apply he.followed
        rw [hconv]
        exact h.lastKey_of_latest ha.conversations.old hy
  refine ⟨ha.messageKept mid m hj he.get, ?_⟩
  by_cases hcid : m.conversationId = cid
  · rw [hcid, (h.turned ha).last]
    intro hlast
    exact hj (Option.some.inj hlast).symm
  · rw [lastKey_congr ((h.turned ha).other _ hcid)]
    exact he.followed

/-- No effect rewrites an earlier message. -/
theorem Earlier.effect (he : Earlier mid m s) (h : TranscriptInv s) (hinv : ChatInv s)
    (heff : Effect who s s') : Earlier mid m s' := by
  have hsilent : s'.messages = s.messages → Earlier mid m s' := by
    intro hm
    refine ⟨hm ▸ he.get, ?_⟩
    rw [lastKey_congr (places_congr hm)]
    exact he.followed
  cases heff with
  | quiet hq => exact hsilent hq.messages
  | opened c ho => exact hsilent ho.messages
  | accepted cid mid c c' r m e o ha => exact he.accepted h ha
  | moved id r r' hm hmove => exact hsilent hm.messages
  | delta id r r' x x' e text hd =>
      exact he.replaced hd.messages hd.messageSame.2.2 hd.messagePlace
        (he.ne_answer h hinv hd.requests.old (by rw [hd.running.1]; rfl))
  | ended id r r' c c' x x' e hd =>
      exact he.replaced hd.messages hd.messageSame.2.2 hd.messagePlace
        (he.ne_answer h hinv hd.requests.old hd.wasActive)

-- ========================================================= user messages

/-- A user's message is not blank. -/
def SpokenInv (s : Store) : Prop :=
  ∀ mid m, s.messages.get mid = some m → m.role = .user →
    PyStr.blank m.content = false

/-- The message an active request answers into is the assistant's. -/
theorem TranscriptInv.answer_role (h : TranscriptInv s)
    (hr : s.requests.get id = some r) (hact : r.status.active = true)
    (hm : s.messages.get r.messageId = some m) : m.role = .assistant := by
  obtain ⟨k, hshape⟩ := h.shape r.conversationId
  obtain ⟨x, hx, hkey⟩ := Option.map_eq_some_iff.mp (h.last id r hr hact)
  have hlast : (turns k).getLast? = some x.2 := by
    rw [← hshape, List.getLast?_map, hx]
    rfl
  obtain ⟨e, he, rfl⟩ := List.mem_map.mp (List.mem_of_getLast? hx)
  obtain ⟨hget, -⟩ := mem_transcript.mp he
  rw [show e.1 = r.messageId from hkey] at hget
  obtain rfl := Option.some.inj (hget.symm.trans hm)
  exact getLast_turns hlast

theorem SpokenInv.replaced (h : SpokenInv s)
    (hrep : Table.Replaced s.messages s'.messages mid m m')
    (hrole : m'.role = .assistant) : SpokenInv s' := by
  intro j x hx huser
  obtain ⟨-, rfl⟩ | ⟨-, hx⟩ := hrep.cases hx
  · simp [hrole] at huser
  · exact h j x hx huser

theorem SpokenInv.ended (h : SpokenInv s) (ht : TranscriptInv s) {e : StreamEvent}
    (he : Ended who s s' id r r' c c' m m' e) : SpokenInv s' :=
  h.replaced he.messages (he.messagePlace.1.trans
    (ht.answer_role he.requests.old he.wasActive he.messages.old))

/-- An effect that inserts no message. -/
theorem SpokenInv.effect (h : SpokenInv s) (ht : TranscriptInv s)
    (heff : Effect who s s') (hsize : s'.messages.nextId = s.messages.nextId) :
    SpokenInv s' := by
  cases heff with
  | quiet hq => exact fun mid m hm => h mid m (hq.messages ▸ hm)
  | opened c ho => exact fun mid m hm => h mid m (ho.messages ▸ hm)
  | accepted cid mid c c' r m e o ha =>
      cases ha.turn with
      | submitted mu hmessages =>
          rw [hmessages, Table.nextId_insert, Table.nextId_insert] at hsize
          omega
      | regenerated m₀ hmessages hlatest hrole => exact h.replaced hmessages hrole.2
  | moved id r r' hm hmove => exact fun mid m hget => h mid m (hm.messages ▸ hget)
  | delta id r r' m m' e text hd =>
      refine h.replaced hd.messages (hd.messagePlace.1.trans ?_)
      exact ht.answer_role hd.requests.old (by rw [hd.running.1]; rfl) hd.messages.old
  | ended id r r' c c' m m' e he => exact h.ended ht he

theorem SpokenInv.effects (h : SpokenInv s) (ht : TranscriptInv s) (hinv : ChatInv s)
    (heff : Effects who s s') (hsize : s'.messages.nextId = s.messages.nextId) :
    SpokenInv s' := by
  cases heff with
  | one heff => exact h.effect ht heff hsize
  | sweep _ hsweep =>
      clear hsize
      have hall : ChatInv s' ∧ TranscriptInv s' ∧ SpokenInv s' := by
        induction hsweep with
        | refl => exact ⟨hinv, ht, h⟩
        | tail _ hswept ih =>
            obtain ⟨hinv, ht, h⟩ := ih
            have heffect := hswept.effect
            obtain ⟨j, x, x', c, c', m, m', e, hended⟩ := hswept
            exact ⟨hinv.effect heffect, ht.effect hinv heffect, h.ended ht hended⟩
      exact hall.2.2

theorem regenerate_messages_size {now : Nat} {catalog : Catalog.CatalogRows}
    {tenantId actorUserId conversationId messageId : Nat}
    {clientRequestId requestHash : String} {x : AcceptedChatRequest × Store}
    (h : regenerate now catalog book tenantId actorUserId conversationId messageId
      clientRequestId requestHash s = .ok x) :
    x.2.messages.nextId = s.messages.nextId := by
  simp only [regenerate, bind_eq_ok] at h
  obtain ⟨⟨idemId, idem, inserted, s₁⟩, hclaim, h⟩ := h
  obtain ⟨t, ht⟩ := claimIdempotency_ok hclaim
  simp only at ht h
  subst ht
  split at h
  · simp only [bind_eq_ok, pure_eq_ok] at h
    obtain ⟨-, -, rfl⟩ := h
    rfl
  · simp only [bind_eq_ok, pure_eq_ok] at h
    obtain ⟨c, -, -, -, target, -, latest, -, -, -, deploymentId, -, ⟨request, s₂⟩,
      happend, rfl⟩ := h
    simp only [appendRequestTransaction, bind_eq_ok, pure_eq_ok] at happend
    obtain ⟨decision, -, -, -, ⟨reservation, billing⟩, -, -, -, c₁, -, happend⟩ := happend
    obtain ⟨-, rfl⟩ := Prod.mk.inj happend
    simp [completeIdempotency, appendMessages]

/-- An effect that accepts nothing inserts no message. -/
theorem Effect.messages_size (heff : Effect who s s')
    (hsize : s'.requests.nextId = s.requests.nextId) :
    s'.messages.nextId = s.messages.nextId := by
  cases heff with
  | quiet hq => rw [hq.messages]
  | opened c ho => rw [ho.messages]
  | accepted cid mid c c' r m e o ha =>
      rw [ha.requests, Table.nextId_insert] at hsize
      omega
  | moved id r r' hm hmove => rw [hm.messages]
  | delta id r r' m m' e text hd => exact hd.messages.size
  | ended id r r' c c' m m' e he => exact he.messages.size

theorem Effects.messages_size (heff : Effects who s s')
    (hsize : s'.requests.nextId = s.requests.nextId) :
    s'.messages.nextId = s.messages.nextId := by
  cases heff with
  | one heff => exact heff.messages_size hsize
  | sweep _ hsweep =>
      clear hsize
      induction hsweep with
      | refl => rfl
      | tail _ hswept ih =>
          obtain ⟨j, x, x', c, c', m, m', e, hended⟩ := hswept
          exact hended.messages.size.trans ih

theorem SpokenInv.perform (h : SpokenInv s) (ht : TranscriptInv s) (hinv : ChatInv s)
    {op : Op} (hvalid : op.validated) (hop : op.perform book s = .ok s') :
    SpokenInv s' := by
  have heff := perform_effects hinv hop
  by_cases haccepts : op.accepts = false
  · exact h.effects ht hinv heff (heff.messages_size (perform_size haccepts hop))
  · cases op with
    | submit now catalog tenantId actorUserId conversationId content clientRequestId
        requestHash =>
        simp only [Op.perform, bind_eq_ok, pure_eq_ok] at hop
        obtain ⟨x, hx, rfl⟩ := hop
        simp only [Op.validated, sendMessageRequest, bind_eq_ok, raiseIf_eq_ok] at hvalid
        obtain ⟨-, -, -, -, -, hblank, -⟩ := hvalid
        obtain ⟨hsame, -⟩ | ⟨c, mu, m, ev, -, -, hmessages, hcontent, -, hrole, -⟩ :=
          submit_said hx
        · exact fun mid m hm => h mid m (hsame ▸ hm)
        · intro mid y hy huser
          rw [hmessages] at hy
          obtain ⟨-, rfl⟩ | hy := Table.get_insert_cases hy
          · simp [hrole] at huser
          · obtain ⟨-, rfl⟩ | hy := Table.get_insert_cases hy
            · rw [hcontent]
              simpa using hblank
            · exact h mid y hy huser
    | regenerate now catalog tenantId actorUserId conversationId messageId
        clientRequestId requestHash =>
        simp only [Op.perform, bind_eq_ok, pure_eq_ok] at hop
        obtain ⟨x, hx, rfl⟩ := hop
        exact h.effects ht hinv heff (regenerate_messages_size hx)
    | create | stop | claimQueued | requeueClaimed | checkLeaseAndStop | appendDelta
    | markCompleted | markStopped | markFailed | markSubmittedUnknown
    | reconcileExpiredOnce | billing => exact absurd rfl haccepts

-- ================================================================ prompt

/-- The provider's messages for a part of the transcript: the blank ones
are left out. -/
def promptOf (messages : List (Nat × Message)) : Except String (List ChatMessage) :=
  (messages.filter fun x => !PyStr.blank x.2.content).mapM fun x =>
    ChatMessage.build x.2.role.value x.2.content

theorem promptMessages_eq (messageId : Nat) (history : List HistoryMessage) :
    promptMessages messageId history
      = (history.filter fun x => x.messageId != messageId && !PyStr.blank x.content).mapM
          fun x => ChatMessage.build x.role.value x.content := by
  induction history with
  | nil => rfl
  | cons x history ih =>
      rw [promptMessages]
      by_cases hid : x.messageId = messageId
      · rw [if_pos hid, ih, List.filter_cons_of_neg (by simp [hid])]
      · rw [if_neg hid]
        by_cases hblank : PyStr.blank x.content = true
        · rw [if_pos hblank, ih, List.filter_cons_of_neg (by simp [hblank])]
        · rw [if_neg hblank, ih, List.filter_cons_of_pos (by simp [hid, hblank]),
            List.mapM_cons]

theorem claimQueued_execution {now : Nat} {catalog : Catalog.CatalogRows}
    {locked : Nat → Bool} {workerId : String} {leaseSeconds : Nat}
    {tenantId requestId : Option Nat} {e : Execution}
    (h : claimQueued now catalog locked workerId leaseSeconds tenantId requestId s
      = .ok (some e, s')) :
    ∃ r, s.requests.get e.requestDbId = some r ∧ r.status = .queued
      ∧ e.messageId = r.messageId ∧ e.conversationId = r.conversationId
      ∧ e.history = history s r.tenantId r.conversationId := by
  simp only [claimQueued, bind_eq_ok] at h
  obtain ⟨-, -, -, -, h⟩ := h
  split at h
  · cases h
  · next id r hcand =>
      obtain ⟨hget, hq⟩ := claimCandidate_some hcand
      split at h
      · cases h
      · rw [pure_eq_ok] at h
        cases h
        exact ⟨r, hget, hq, rfl, rfl, rfl⟩

/-- The transcript of an execution: the turns before, the user's message
and the answer it is to write. -/
structure Answering (s : Store) (e : Execution) (before : List (Nat × Message))
    (u : Nat × Message) (m : Message) : Prop where
  transcript : transcript s e.conversationId = before ++ [u, (e.messageId, m)]
  user : u.2.role = .user
  answer : m.role = .assistant ∧ m.requestId = some e.requestDbId

/-- A transcript that ends with an answer ends with a turn. -/
theorem transcript_turn {k : Nat} (hshape : (places s cid).map (·.2) = turns k)
    (hlast : lastKey s cid = some mid) :
    ∃ before u m, transcript s cid = before ++ [u, (mid, m)] ∧ u.2.role = .user
      ∧ m.role = .assistant := by
  have hmap : (transcript s cid).map (fun e => (e.2.sequenceNo, e.2.role)) = turns k := by
    rw [← hshape, places, List.map_map]
    rfl
  cases k with
  | zero =>
      rw [turns, List.map_eq_nil_iff] at hmap
      simp [lastKey, places, hmap] at hlast
  | succ k =>
      rw [turns, List.map_eq_append_iff] at hmap
      obtain ⟨before, rest, heq, -, hrest⟩ := hmap
      obtain ⟨u, l, rfl, hu, hl⟩ := List.map_eq_cons_iff.mp hrest
      obtain ⟨a, l', rfl, ha, hl'⟩ := List.map_eq_cons_iff.mp hl
      rw [List.map_eq_nil_iff] at hl'
      subst hl'
      have hkey : a.1 = mid := by
        simpa [lastKey, places, heq, List.getLast?_append] using hlast
      refine ⟨before, u, a.2, ?_, congrArg Prod.snd hu, congrArg Prod.snd ha⟩
      rw [heq, ← hkey]

theorem claim_answering (ht : TranscriptInv s) (hinv : ChatInv s) {e : Execution}
    (hr : s.requests.get e.requestDbId = some r) (hq : r.status = .queued)
    (hmid : e.messageId = r.messageId) (hcid : e.conversationId = r.conversationId) :
    ∃ before u m, Answering s e before u m := by
  have hact : r.status.active = true := by
    rw [hq]
    rfl
  obtain ⟨k, hshape⟩ := ht.shape r.conversationId
  obtain ⟨before, u, m, heq, huser, hanswer⟩ :=
    transcript_turn hshape (ht.last _ r hr hact)
  obtain ⟨x, hx, hlink, -⟩ := hinv.link.linked _ r hr hact
  have hm : s.messages.get r.messageId = some m := by
    have hmem : (r.messageId, m) ∈ transcript s r.conversationId := by
      rw [heq]
      simp
    exact (mem_transcript.mp hmem).1
  obtain rfl := Option.some.inj (hx.symm.trans hm)
  exact ⟨before, u, x, by rw [hcid, hmid, heq], huser, hanswer, hlink⟩

/-- The prompt of an execution is what stands before its answer. -/
theorem completionMessages_eq (ht : TranscriptInv s) (hinv : ChatInv s) {e : Execution}
    (hr : s.requests.get e.requestDbId = some r) (hq : r.status = .queued)
    (hhistory : e.history = history s r.tenantId r.conversationId)
    (hcid : e.conversationId = r.conversationId) {before : List (Nat × Message)}
    {u : Nat × Message} (ha : Answering s e before u m) :
    completionMessages e = promptOf (before ++ [u]) := by
  have hact : r.status.active = true := by
    rw [hq]
    rfl
  obtain ⟨c, hc, hp⟩ := hinv.pointer.complete _ r hr hact
  obtain ⟨y, hy, -, hten, -⟩ := hinv.pointer.sound _ c _ hc hp
  obtain rfl := Option.some.inj (hr.symm.trans hy)
  have htranscript := ha.transcript
  rw [hcid] at htranscript
  have hnodup : ((transcript s r.conversationId).map (·.1)).Nodup :=
    s.messages.nodup_entries.sublist (List.filter_sublist.map _)
  -- no other message has the key of the answer
  have hother : ∀ x ∈ before ++ [u], x.1 ≠ e.messageId := by
    intro x hx heq
    rw [htranscript, show before ++ [u, (e.messageId, m)]
      = (before ++ [u]) ++ [(e.messageId, m)] by simp, List.map_append,
      List.nodup_append] at hnodup
    exact hnodup.2.2 x.1 (List.mem_map_of_mem hx) e.messageId (by simp) heq
  rw [completionMessages, promptMessages_eq, hhistory, hten, ht.history_eq hc,
    htranscript, List.filter_map, List.mapM_map]
  have hfilter : (before ++ [u, (e.messageId, m)]).filter
      (fun x => x.1 != e.messageId && !PyStr.blank x.2.content)
        = (before ++ [u]).filter fun x => !PyStr.blank x.2.content := by
    rw [show before ++ [u, (e.messageId, m)] = (before ++ [u]) ++ [(e.messageId, m)] by
      simp, List.filter_append, List.filter_cons_of_neg (by simp), List.filter_nil,
      List.append_nil]
    refine List.filter_congr fun x hx => ?_
    simp [hother x hx]
  exact congrArg (List.mapM _) hfilter

/-- A built message says what it was built from. -/
theorem chatMessage_build {content : String} {x : ChatMessage}
    (h : ChatMessage.build (MessageRole.user).value content = .ok x) :
    x.role = .user ∧ x.content = content := by
  simp only [ChatMessage.build, bind_eq_ok, orRaise_eq_ok] at h
  obtain ⟨role, hrole, h⟩ := h
  obtain ⟨hcheck, rfl⟩ := certify_eq_ok h
  exact ⟨Option.some.inj hrole.symm, rfl⟩

/-- A prompt ends with the user's message, unless that is blank. -/
theorem promptOf_last {before : List (Nat × Message)} {u : Nat × Message}
    {messages : List ChatMessage} (huser : u.2.role = .user)
    (hspoken : PyStr.blank u.2.content = false)
    (h : promptOf (before ++ [u]) = .ok messages) :
    ∃ x, messages.getLast? = some x ∧ x.role = .user ∧ x.content = u.2.content := by
  rw [promptOf, List.filter_append, List.filter_cons_of_pos (by simp [hspoken]),
    List.filter_nil, List.mapM_append] at h
  simp only [bind_eq_ok, pure_eq_ok, List.mapM_cons, List.mapM_nil] at h
  obtain ⟨first, -, last, ⟨x, hx, -, rfl, rfl⟩, rfl⟩ := h
  rw [huser] at hx
  obtain ⟨hrole, hcontent⟩ := chatMessage_build hx
  exact ⟨x, by rw [List.getLast?_append]; rfl, hrole, hcontent⟩

-- ================================================================== runs

/-- The transcripts of a store and what its active requests answer into. -/
structure Transcribed (s : Store) : Prop where
  /-- Sequence numbers `1..2k`, the roles in turn. -/
  alternates : ∀ cid, ∃ k,
    (transcript s cid).map (fun e => e.2.sequenceNo) = List.range' 1 (2 * k)
      ∧ (transcript s cid).map (fun e => e.2.role)
        = (List.replicate k [MessageRole.user, .assistant]).flatten
  /-- The active request answers into the last message, which is linked to
  it, the last one accepted for that message. -/
  answers : ∀ id r, s.requests.get id = some r → r.status.active = true →
    ∃ before m, transcript s r.conversationId = before ++ [(r.messageId, m)]
      ∧ m.role = .assistant ∧ m.requestId = some id
      ∧ ∀ id' r', s.requests.get id' = some r' → r'.messageId = r.messageId → id' ≤ id

/-- The prompt of an execution claimed in `s` is the part of the
transcript before its answer, and ends with the user's turn. -/
structure Prompted (s : Store) (e : Execution) (before : List (Nat × Message))
    (u : Nat × Message) (m : Message) : Prop extends Answering s e before u m where
  prompt : completionMessages e = promptOf (before ++ [u])
  ends : ∀ messages, completionMessages e = .ok messages →
    ∃ x, messages.getLast? = some x ∧ x.role = .user ∧ x.content = u.2.content

theorem TranscriptInv.transcribed (h : TranscriptInv s) (hinv : ChatInv s) :
    Transcribed s where
  alternates := by
    intro cid
    obtain ⟨k, hshape⟩ := h.shape cid
    refine ⟨k, transcript_numbers hshape, ?_⟩
    rw [← turns_roles, ← hshape, places, List.map_map, List.map_map]
    rfl
  answers := by
    intro id r hr hact
    obtain ⟨k, hshape⟩ := h.shape r.conversationId
    obtain ⟨before, u, m, heq, -, hrole⟩ := transcript_turn hshape (h.last id r hr hact)
    obtain ⟨x, hx, hlink, -⟩ := hinv.link.linked id r hr hact
    have hmem : (r.messageId, m) ∈ transcript s r.conversationId := by
      rw [heq]
      simp
    have hm := (mem_transcript.mp hmem).1
    obtain rfl := Option.some.inj (hx.symm.trans hm)
    refine ⟨before ++ [u], x, by rw [heq]; simp, hrole, hlink, fun id' r' hr' hmid => ?_⟩
    exact h.latest r.messageId x id hx hlink id' r' hr' hmid

theorem TranscriptInv.step (h : TranscriptInv s) (hinv : ChatInv s) (op : Op) :
    TranscriptInv (step book s op) :=
  ((step_effects book hinv op).carry hinv (fun hinv heff ht => TranscriptInv.effect ht hinv heff)
    h).2

theorem SpokenInv.step (h : SpokenInv s) (ht : TranscriptInv s) (hinv : ChatInv s)
    {op : Op} (hvalid : op.validated) : SpokenInv (step book s op) := by
  unfold Chat.step
  split
  · next s' hop => exact h.perform ht hinv hvalid hop
  · exact h

/-- No step rewrites an earlier message. -/
theorem Earlier.step (he : Earlier mid m s) (h : TranscriptInv s) (hinv : ChatInv s)
    (op : Op) : Earlier mid m (Chat.step book s op) := by
  have hcarry := (step_effects book hinv op).carry (P := fun t => TranscriptInv t ∧ Earlier mid m t)
    hinv (fun hinv heff ht => ⟨ht.1.effect hinv heff, ht.2.effect ht.1 hinv heff⟩) ⟨h, he⟩
  exact hcarry.2.2

theorem transcriptInv_run (h : Opening s) (hempty : s.messages = Table.empty)
    (ops : List Op) : TranscriptInv (run (step book) s ops) := by
  induction ops using List.reverseRecOn with
  | nil => exact TranscriptInv.opening h hempty
  | append_singleton ops op ih =>
      rw [run_concat]
      exact ih.step (chatInv_run h ops) op

theorem spokenInv_run (h : Opening s) (hempty : s.messages = Table.empty)
    {ops : List Op} (hvalid : ∀ op ∈ ops, op.validated) :
    SpokenInv (run (step book) s ops) := by
  induction ops using List.reverseRecOn with
  | nil =>
      intro mid m hm
      simp [hempty] at hm
  | append_singleton ops op ih =>
      rw [run_concat]
      exact (ih fun o ho => hvalid o (by simp [ho])).step
        (transcriptInv_run h hempty ops) (chatInv_run h ops) (hvalid op (by simp))

/-- In every store that submits, regenerations, stops, workers and sweeps
can lead to: the transcripts are whole turns and the active request
answers into the last message; no further call rewrites an earlier
message; and the prompt of whatever a worker claims next is the transcript
before its answer, blank messages left out, up to the user's turn. -/
theorem transcript_prompt (book : Catalog.PriceBook) (h : Opening s) (hempty : s.messages = Table.empty)
    (ops : List Op) (hvalid : ∀ op ∈ ops, op.validated) :
    Transcribed (run (step book) s ops)
      ∧ (∀ op mid m, Earlier mid m (run (step book) s ops) →
        (step book (run (step book) s ops) op).messages.get mid = some m)
      ∧ ∀ now catalog locked workerId leaseSeconds tenantId requestId e s',
        claimQueued now catalog locked workerId leaseSeconds tenantId requestId
          (run (step book) s ops) = .ok (some e, s') →
        ∃ before u m, Prompted (run (step book) s ops) e before u m := by
  have hinv : ChatInv (run (step book) s ops) := chatInv_run h ops
  have ht : TranscriptInv (run (step book) s ops) := transcriptInv_run h hempty ops
  refine ⟨ht.transcribed hinv, fun op mid m he => (he.step ht hinv op).get, ?_⟩
  intro now catalog locked workerId leaseSeconds tenantId requestId e s' hclaim
  obtain ⟨r, hr, hq, hmid, hcid, hhistory⟩ := claimQueued_execution hclaim
  obtain ⟨before, u, m, ha⟩ := claim_answering ht hinv hr hq hmid hcid
  have hprompt := completionMessages_eq ht hinv hr hq hhistory hcid ha
  have hspoken : PyStr.blank u.2.content = false := by
    have hmem : u ∈ transcript (run (step book) s ops) e.conversationId := by
      rw [ha.transcript]
      simp
    exact spokenInv_run h hempty hvalid u.1 u.2 (mem_transcript.mp hmem).1 ha.user
  refine ⟨before, u, m, ha, hprompt, fun messages hmessages => ?_⟩
  rw [hprompt] at hmessages
  exact promptOf_last ha.user hspoken hmessages

/-- What the first claim of the sample conversation returns. -/
def firstExecution : Execution :=
  { requestDbId := 0, requestId := 0, conversationId := 0, messageId := 1, tenantId := 1
    productModelId := "qwen"
    deployment :=
      { deploymentId := 0, productModelId := "qwen", providerModelId := "qwen-plus"
        concurrencyLimit := 16, routingConfig := [] }
    history := [⟨0, .user, "hi", .accepted, 0⟩, ⟨1, .assistant, "", .streaming, 0⟩]
    actorUserId := some 2, status := .running, lastEventSequence := 0
    workerId := some "worker", leaseToken := some 1, leaseExpiresAt := some 60000001
    providerRequestId := none, reservationId := some 0 }

/-- A message is answered, and another follows it. -/
def twoTurns : List Op :=
  [sampleSubmit 0 "hi" "k1", sampleClaim 1,
   .appendDelta 60 2 2 firstExecution 1 "Hello" (some "req-1"),
   .markCompleted 3 3 firstExecution 2 "Hello" (some "req-1") ⟨3, 20, 23⟩,
   sampleSubmit 4 "and now?" "k2"]

theorem twoTurns_validated : ∀ op ∈ twoTurns, op.validated := by
  simp only [twoTurns, List.forall_mem_cons, List.not_mem_nil, false_implies, implies_true,
    and_true]
  exact ⟨rfl, trivial, trivial, trivial, rfl⟩

/-- The second message is claimed. Its prompt is what came before it and
itself; and the first answer is there to stay. -/
theorem transcript_prompt_sample :
    Transcribed (run (step sampleBook) sampleStore twoTurns)
      ∧ (∀ op, ((step sampleBook (run (step sampleBook) sampleStore twoTurns) op).messages.get
        1).map (·.content) = some "Hello")
      ∧ ∃ e before u m,
        Prompted (run (step sampleBook) sampleStore twoTurns) e before u m
          ∧ before.map (fun x => (x.1, x.2.role, x.2.content))
            = [(0, .user, "hi"), (1, .assistant, "Hello")] := by
  obtain ⟨htranscribed, hkept, hprompt⟩ :=
    transcript_prompt sampleBook sampleStore_opening rfl twoTurns twoTurns_validated
  have htold : (transcript (run (step sampleBook) sampleStore twoTurns) 0).map
      (fun x => (x.1, x.2.role, x.2.content))
      = [(0, .user, "hi"), (1, .assistant, "Hello")]
        ++ [(2, .user, "and now?"), (3, .assistant, "")] := by decide +kernel
  have hanswer : ((run (step sampleBook) sampleStore twoTurns).messages.get 1).map
      (fun m => (m.conversationId, m.content)) = some (0, "Hello") := by decide +kernel
  have hlast : lastKey (run (step sampleBook) sampleStore twoTurns) 0 = some 3 := by
    decide +kernel
  have hclaimed : (claimQueued 5 sampleCatalog (fun _ => false) "worker" 60 none none
      (run (step sampleBook) sampleStore twoTurns)).toOption.map
        (fun x => x.1.map (·.conversationId)) = some (some 0) := by
    decide +kernel
  refine ⟨htranscribed, fun op => ?_, ?_⟩
  · obtain ⟨m, hm, hfields⟩ := Option.map_eq_some_iff.mp hanswer
    obtain ⟨hcid, hcontent⟩ := Prod.mk.inj hfields
    have hearlier : Earlier 1 m (run (step sampleBook) sampleStore twoTurns) :=
      ⟨hm, by rw [hcid, hlast]; decide⟩
    rw [hkept op 1 m hearlier]
    exact congrArg some hcontent
  · cases hclaim : claimQueued 5 sampleCatalog (fun _ => false) "worker" 60 none none
        (run (step sampleBook) sampleStore twoTurns) with
    | error e =>
        rw [hclaim] at hclaimed
        cases hclaimed
    | ok x =>
        obtain ⟨claimed, s'⟩ := x
        rw [hclaim] at hclaimed
        obtain ⟨e, rfl, hcid⟩ := Option.map_eq_some_iff.mp (Option.some.inj hclaimed)
        obtain ⟨before, u, m, hprompted⟩ := hprompt _ _ _ _ _ _ _ e s' hclaim
        refine ⟨e, before, u, m, hprompted, ?_⟩
        have htranscript := hprompted.transcript
        rw [hcid] at htranscript
        rw [htranscript, List.map_append] at htold
        exact (List.append_inj' htold rfl).1

end Mosaic.Chat
