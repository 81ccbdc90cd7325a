/-
Whether what was stored can be read back.

# Limits

The writers store whatever length of text they are given; the contracts of
the readers have limits. `TextInv` carries a limit on every content along
the acts that respect it (`Act.Within`): what a process appends is added
to the text it holds, which is the text its message has (`RetoldInv`), so
the length of the message is known where the delta arrives.

# Readers

With the lengths in bounds nothing else stands in the way: a log is whole
and names its request (`streamable`), and a snapshot has every request its
conversation points to (`getConversation_isOk`).
-/
import Mosaic.Chat.Proofs.Retold
import Mosaic.Chat.Proofs.Transcript
import Mosaic.Chat.Snapshot

namespace Mosaic.Chat

open Lib Providers

variable {cfg : Config} {w w' : World} {a : Act} {s s' : Store} {id cid limit most : Nat}
  {r : InferenceRequest}

-- ================================================================== acts

/-- The operation of an act on the store, if it is one. -/
def Act.op (cfg : Config) (w : World) : Act → Option Op
  | .api op _ => some op
  | .claim .. => none
  | .work pid env => (w.processes.get pid).bind fun p => p.call cfg env w.store
  | .settle now tenantId reservationId capture =>
      some (.billing (settleCall cfg.book w.store now tenantId reservationId capture))

/-- An act says what its operation says. -/
theorem worldStep_op (cfg : Config) (w : World) (a : Act) :
    ((worldStep cfg w a).store.messages = w.store.messages
        ∧ (worldStep cfg w a).store.events = w.store.events)
      ∨ ∃ op, a.op cfg w = some op
        ∧ (worldStep cfg w a).store = step cfg.book w.store op := by
  cases a with
  | api op hop => exact Or.inr ⟨op, rfl, rfl⟩
  | claim now catalog locked workerId leaseSeconds tenantId requestId =>
      left
      simp only [worldStep]
      split
      · next e store hclaim => exact claimQueued_silent hclaim
      · next store hclaim => exact claimQueued_silent hclaim
      · exact ⟨rfl, rfl⟩
  | work pid env =>
      rcases hp : w.processes.get pid with _ | p
      · have hstay : worldStep cfg w (.work pid env) = w := by simp only [worldStep, hp]
        rw [hstay]
        exact Or.inl ⟨rfl, rfl⟩
      · rcases hstep : workerStep cfg env p w.store with ⟨p', s'⟩
        have hstore : (worldStep cfg w (.work pid env)).store = s' := by
          simp only [worldStep, hp, hstep]
        rw [hstore, Act.op, hp]
        rcases workerStep_call hstep with rfl | ⟨op, hop, hs⟩
        · exact Or.inl ⟨rfl, rfl⟩
        · exact Or.inr ⟨op, hop, hs⟩
  | settle now tenantId reservationId capture => exact Or.inr ⟨_, rfl, rfl⟩

/-- The process stands before an append, for a request it still holds. -/
structure Appends (w : World) (pid : Nat) (p : Process) (chunk : TextStreamChunk) :
    Prop where
  process : w.processes.get pid = some p
  pc : p.pc = .append chunk
  held : ∃ r, Holds w.store p r ∧ r.status = .running

/-- An act appends no delta longer than `most`, and makes no answer longer
than `limit`. -/
def Act.Within (most limit : Nat) (w : World) : Act → Prop
  | .work pid _ => ∀ p chunk, Appends w pid p chunk →
      PyStr.len chunk.delta ≤ most
        ∧ PyStr.len p.content + PyStr.len chunk.delta ≤ limit
  | _ => True

/-- A submit says no more than `limit`. -/
def Act.Says (limit : Nat) : Act → Prop
  | .api (.submit _ _ _ _ _ content _ _) _ => PyStr.len content ≤ limit
  | _ => True

-- ============================================================== contents

/-- No content is longer than `limit`. -/
structure TextInv (limit : Nat) (w : World) : Prop where
  messages : ∀ mid m, w.store.messages.get mid = some m → PyStr.len m.content ≤ limit
  processes : ∀ pid p, w.processes.get pid = some p → PyStr.len p.content ≤ limit
  points : ∀ pid p point, w.processes.get pid = some p → p.pc = .stopping point →
    PyStr.len point.content ≤ limit

theorem len_append (x y : String) : PyStr.len (x ++ y) = PyStr.len x + PyStr.len y := by
  simp [PyStr.len]

theorem len_empty : PyStr.len "" = 0 := rfl

/-- What a process says is within the limit. -/
theorem TextInv.told (h : TextInv limit w) {pid : Nat} {p : Process} {text : String}
    (hp : w.processes.get pid = some p) (htold : p.told = some text) :
    PyStr.len text ≤ limit := by
  obtain ⟨point, hpc, rfl⟩ | ⟨-, rfl⟩ := Process.told_cases htold
  · exact h.points pid p point hp hpc
  · exact h.processes pid p hp

/-- What a process that may append holds is what its message says. -/
theorem RetoldInv.content (h : RetoldInv w) (hstream : StreamInv cfg w) {pid : Nat}
    {p : Process} {m : Message} (hp : w.processes.get pid = some p)
    (hsync : p.pc.inSync = true) (hr : Holds w.store p r) (hrun : r.status = .running)
    (hm : lockedMessage w.store p.current = some m) : m.content = p.content := by
  obtain ⟨x, hx⟩ := (hstream.reads pid p hp).placed
  obtain rfl := Option.some.inj (hr.1.symm.trans hx.row)
  obtain ⟨m', hm', -, -, -, -, hcontent⟩ :=
    hstream.fleet.chat.link.linked _ r hr.1 (by rw [hrun]; rfl)
  rw [hx.messageId] at hm'
  obtain rfl := Option.some.inj ((lockedMessage_some hm).1.symm.trans hm')
  rw [hcontent]
  exact h.retold pid p hp _ (Process.told_of_inSync hsync) r hr

/-- The contents an act may store are within the limit. -/
theorem TextInv.texts (h : TextInv limit w) (hret : RetoldInv w) (hstream : StreamInv cfg w)
    (hbrief : a.Says limit) (ha : a.Within most limit w) {op : Op} (hop : a.op cfg w = some op)
    {t : String} (ht : op.texts w.store t) : PyStr.len t ≤ limit := by
  cases a with
  | claim => cases hop
  | settle now tenantId reservationId capture =>
      obtain rfl := Option.some.inj hop
      exact ht.elim
  | api op' hapi =>
      obtain rfl := Option.some.inj hop
      cases op' with
      | submit now catalog tenantId actorUserId conversationId content clientRequestId hash =>
          rcases ht with rfl | rfl
          · exact hbrief
          · exact Nat.zero_le limit
      | regenerate now catalog tenantId actorUserId conversationId messageId key hash =>
          obtain rfl := ht
          exact Nat.zero_le limit
      | create | stop | reconcileExpiredOnce => exact ht.elim
      | claimQueued | requeueClaimed | checkLeaseAndStop | appendDelta | markCompleted
      | markStopped | markFailed | markSubmittedUnknown | billing => cases hapi
  | work pid env =>
      obtain ⟨p, hp, hcall⟩ := Option.bind_eq_some_iff.mp hop
      cases hpc : p.pc with
      | append chunk =>
          simp only [Process.call, hpc, Option.some.injEq] at hcall
          subst hcall
          obtain ⟨r, m, hlock, hrun, hm, rfl⟩ := ht
          have hheld := holds_of_locked hlock
          rw [len_append, hret.content hstream hp (by rw [hpc]; rfl) hheld hrun hm]
          exact (ha p chunk ⟨hp, hpc, r, hheld, hrun⟩).2
      | complete =>
          simp only [Process.call, hpc, Option.some.injEq] at hcall
          subst hcall
          obtain rfl := ht
          exact h.processes pid p hp
      | stopping point =>
          simp only [Process.call, hpc, Option.some.injEq] at hcall
          subst hcall
          obtain rfl := ht
          exact h.points pid p point hp hpc
      | releasing | capture =>
          simp only [Process.call, hpc] at hcall
          obtain ⟨reservationId, -, rfl⟩ := Option.map_eq_some_iff.mp hcall
          exact ht.elim
      | firstCheck | secondCheck | checkChunk | finalCheck | requeue | failing
      | markingUnknown =>
          simp only [Process.call, hpc, Option.some.injEq] at hcall
          subst hcall
          exact ht.elim
      | begin | prepare | openStream | next | requeued | ended =>
          simp only [Process.call, hpc] at hcall
          cases hcall

/-- An act within the limit keeps every content in it. -/
theorem TextInv.act (h : TextInv limit w) (hret : RetoldInv w) (hstream : StreamInv cfg w)
    (hbrief : a.Says limit) (ha : a.Within most limit w) :
    TextInv limit (worldStep cfg w a) := by
  have hmessages : ∀ mid m, (worldStep cfg w a).store.messages.get mid = some m →
      PyStr.len m.content ≤ limit := by
    intro mid m hm
    rcases worldStep_op cfg w a with ⟨hsame, -⟩ | ⟨op, hop, hs⟩
    · exact h.messages mid m (hsame ▸ hm)
    · have hwritten := step_written cfg.book w.store op
      rw [← hs] at hwritten
      rcases hwritten.messages mid m hm with htext | ⟨m₀, hm₀, heq⟩
      · exact h.texts hret hstream hbrief ha hop htext
      · rw [← heq]
        exact h.messages mid m₀ hm₀
  have hacted := worldStep_acted cfg hstream.fleet.chat a
  generalize worldStep cfg w a = w' at hmessages hacted
  cases hacted with
  | outside => exact ⟨hmessages, h.processes, h.points⟩
  | settled => exact ⟨hmessages, h.processes, h.points⟩
  | started a now e r r' s' =>
      refine ⟨hmessages, fun pid p hp => ?_, fun pid p point hp hpc => ?_⟩
      · obtain ⟨-, rfl⟩ | hp := Table.get_insert_cases hp
        · exact Nat.zero_le limit
        · exact h.processes pid p hp
      · obtain ⟨-, rfl⟩ | hp := Table.get_insert_cases hp
        · cases hpc
        · exact h.points pid p point hp hpc
  | worked pid env p p' s' hp hstep =>
      have hsaid := workerStep_said hstep
      have hlen : PyStr.len p'.content ≤ limit := by
        cases hsaid with
        | kept hcontent =>
            rw [hcontent]
            exact h.processes pid p hp
        | said chunk ev r hpc hnext hcontent hevents hrequest hbody hlocked =>
            rw [hcontent, len_append]
            exact (ha p chunk ⟨hp, hpc, r, holds_of_locked hlocked.1, hlocked.2⟩).2
      refine ⟨hmessages, fun i q hq => ?_, fun i q point hq hpc => ?_⟩
      · obtain ⟨-, -, -, rfl⟩ | ⟨-, hq⟩ := Table.get_modify_cases hq
        · exact hlen
        · exact h.processes i q hq
      · obtain ⟨-, -, -, rfl⟩ | ⟨-, hq⟩ := Table.get_modify_cases hq
        · cases hsaid with
          | kept hcontent hsequence htells =>
              obtain ⟨-, hwas | ⟨-, -, hempty⟩⟩ := htells _ (Process.told_stopping hpc)
              · exact h.told hp hwas
              · rw [hempty]
                exact Nat.zero_le limit
          | said chunk ev r hpc' hnext =>
              rw [hnext] at hpc
              cases hpc
        · exact h.points i q point hq hpc

-- ================================================================ events

/-- What the public contract asks of the body of an event. -/
def EventBody.admissible (most limit : Nat) : EventBody → Prop
  | .started => True
  | .delta text => 1 ≤ PyStr.len text ∧ PyStr.len text ≤ most
  | .completed content => PyStr.len content ≤ limit
  | .stopped => True
  | .failed error => publicErrorCode error.code = true ∧ 1 ≤ PyStr.len error.message

/-- A code character is a letter, a digit or an underscore. -/
theorem mem_collapseCode {b : Bool} {l : List Char} {c : Char} (h : c ∈ collapseCode b l) :
    (('A' ≤ c && c ≤ 'Z') || ('0' ≤ c && c ≤ '9') || c == '_') = true := by
  fun_induction collapseCode b l with
  | case1 => cases h
  | case2 b d rest hd ih =>
      rcases List.mem_cons.mp h with rfl | h
      · simpa [or_assoc] using hd
      · exact ih h
  | case3 d rest hd ih => exact ih h
  | case4 b d rest hd hb ih =>
      rcases List.mem_cons.mp h with rfl | h
      · rfl
      · exact ih h

/-- A code the worker stores is one the contract accepts. -/
theorem publicErrorCode_safe (value : String) {fallback : String}
    (hfallback : publicErrorCode fallback = true) :
    publicErrorCode (safeErrorCode value fallback) = true := by
  unfold publicErrorCode at hfallback ⊢
  rw [Bool.and_eq_true, decide_eq_true_eq, List.all_eq_true] at hfallback ⊢
  unfold safeErrorCode
  simp only [String.toList_ofList, List.length_take]
  generalize hn : ((collapseCode false (value.toList.map Char.toUpper)).dropWhile
    (· == '_')).rdropWhile (· == '_') = normalized
  have hmem : ∀ c ∈ normalized,
      (('A' ≤ c && c ≤ 'Z') || ('0' ≤ c && c ≤ '9') || c == '_') = true := by
    intro c hc
    rw [← hn] at hc
    exact mem_collapseCode ((List.dropWhile_suffix _).subset ((List.rdropWhile_prefix _ _).subset hc))
  split
  · refine ⟨by omega, fun c hc => hfallback.2 c (List.mem_of_mem_take hc)⟩
  · next hne =>
      have := List.length_pos_iff.mpr hne
      exact ⟨by omega, fun c hc => hmem c (List.mem_of_mem_take hc)⟩

theorem Blames.admissible {code : String} {b : EventBody} (h : Blames code b)
    (hcode : publicErrorCode code = true) : b.admissible most limit := by
  obtain ⟨err, rfl, hshown, hmessage⟩ := h
  have hne : code ≠ "" := by
    rintro rfl
    cases hcode
  rw [shownCode_eq hne] at hshown
  exact ⟨hshown ▸ hcode, by rw [hmessage]; decide⟩

/-- The events an act may write are within the limits. -/
theorem TextInv.bodies (h : TextInv limit w) (ha : a.Within most limit w) {op : Op}
    (hop : a.op cfg w = some op) {b : EventBody} (hb : op.bodies w.store b) :
    b.admissible most limit := by
  cases a with
  | claim => cases hop
  | settle now tenantId reservationId capture =>
      obtain rfl := Option.some.inj hop
      exact hb.elim
  | api op' hapi =>
      obtain rfl := Option.some.inj hop
      cases op' with
      | submit | regenerate | stop =>
          obtain rfl := hb
          trivial
      | reconcileExpiredOnce now limit locked =>
          rcases hb with rfl | hb
          · trivial
          · exact hb.admissible (by decide)
      | create => exact hb.elim
      | claimQueued | requeueClaimed | checkLeaseAndStop | appendDelta | markCompleted
      | markStopped | markFailed | markSubmittedUnknown | billing => cases hapi
  | work pid env =>
      obtain ⟨p, hp, hcall⟩ := Option.bind_eq_some_iff.mp hop
      cases hpc : p.pc with
      | append chunk =>
          simp only [Process.call, hpc, Option.some.injEq] at hcall
          subst hcall
          obtain ⟨rfl, hne, r, hlock, hrun⟩ := hb
          refine ⟨?_, (ha p chunk ⟨hp, hpc, r, holds_of_locked hlock, hrun⟩).1⟩
          by_contra hshort
          refine hne (String.toList_eq_nil_iff.mp (List.length_eq_zero_iff.mp ?_))
          change ¬ 1 ≤ chunk.delta.toList.length at hshort
          omega
      | complete =>
          simp only [Process.call, hpc, Option.some.injEq] at hcall
          subst hcall
          obtain rfl := hb
          exact h.processes pid p hp
      | stopping point =>
          simp only [Process.call, hpc, Option.some.injEq] at hcall
          subst hcall
          obtain rfl := hb
          trivial
      | failing code details provider reserved =>
          simp only [Process.call, hpc, Option.some.injEq] at hcall
          subst hcall
          exact Blames.admissible hb (publicErrorCode_safe code (by decide))
      | markingUnknown code provider =>
          simp only [Process.call, hpc, Option.some.injEq] at hcall
          subst hcall
          exact Blames.admissible hb (publicErrorCode_safe code (by decide))
      | releasing | capture =>
          simp only [Process.call, hpc] at hcall
          obtain ⟨reservationId, -, rfl⟩ := Option.map_eq_some_iff.mp hcall
          exact hb.elim
      | firstCheck | secondCheck | checkChunk | finalCheck | requeue =>
          simp only [Process.call, hpc, Option.some.injEq] at hcall
          subst hcall
          exact hb.elim
      | begin | prepare | openStream | next | requeued | ended =>
          simp only [Process.call, hpc] at hcall
          cases hcall

/-- Every event ever written is one the contract accepts. -/
def EventsInv (most limit : Nat) (w : World) : Prop :=
  ∀ e ∈ w.store.events.rows, e.body.admissible most limit

theorem EventsInv.act (h : EventsInv most limit w) (htext : TextInv limit w)
    (ha : a.Within most limit w) : EventsInv most limit (worldStep cfg w a) := by
  intro e he
  rcases worldStep_op cfg w a with ⟨-, hsame⟩ | ⟨op, hop, hs⟩
  · exact h e (hsame ▸ he)
  · have hwritten := step_written cfg.book w.store op
    rw [← hs] at hwritten
    rcases hwritten.events e he with hold | hnew
    · exact h e hold
    · exact htext.bodies ha hop hnew

/-- A numbered event with an admissible body passes the contract. -/
theorem eventContract_of_admissible {e : StreamEvent}
    (h : e.body.admissible 64000 1000000) (hseq : 0 ≤ e.sequenceNo)
    (hstarted : e.body = .started → e.sequenceNo = 0) : eventContract e = true := by
  unfold eventContract
  cases hb : e.body with
  | started => simp [hstarted hb]
  | delta text =>
      rw [hb] at h
      obtain ⟨hone, hmost⟩ := h
      simp [hseq, hone, hmost]
  | completed content =>
      rw [hb] at h
      have hlen : PyStr.len content ≤ 1000000 := h
      simp [hseq, hlen]
  | stopped => simp [hseq]
  | failed error =>
      rw [hb] at h
      obtain ⟨hcode, hmessage⟩ := h
      simp [hseq, hcode, hmessage]

/-- Every event of a log passes the validation of the stream, in turn. -/
theorem streamable (hevents : EventsInv 64000 1000000 w) (hinv : ChatInv w.store)
    (hnames : NamesInv w.store) (hr : w.store.requests.get id = some r) {i : Nat}
    {row : StreamEvent} (hrow : (w.store.log id)[i]? = some row) :
    validateEvent row (requestRecord id r) r.conversationId i (decide (i = 0))
      (((w.store.log id).take i).any fun e => e.body.terminal) = .ok () := by
  have hmem : row ∈ w.store.log id := List.mem_of_getElem? hrow
  have hseq := (hinv.log.wellFormed id r hr).seq_eq hrow
  rw [validateEvent_log hinv hnames hr ⟨rfl, rfl⟩ hrow, if_pos]
  refine eventContract_of_admissible (hevents row (List.mem_of_mem_filter hmem)) ?_ ?_
  · rw [hseq]
    exact Int.natCast_nonneg i
  · exact (hnames id r hr row hmem).started

-- ================================================================ turns

/-- Without a new message everything stays in its place. -/
theorem Effect.places {who : Caller} (heff : Effect who s s')
    (hsize : s'.messages.nextId = s.messages.nextId) (cid : Nat) :
    places s' cid = places s cid := by
  cases heff with
  | quiet hq => exact places_congr hq.messages
  | opened c ho => exact places_congr ho.messages
  | accepted j mid c c' r m e o ha =>
      cases ha.turn with
      | submitted mu hmessages =>
          rw [hmessages, Table.nextId_insert, Table.nextId_insert] at hsize
          omega
      | regenerated m₀ hmessages hlatest hrole hplace =>
          have hconv : m.conversationId = m₀.conversationId :=
            ha.messageOwner.2.trans (ha.messageOld m₀ hmessages.old).1.symm
          exact places_replaced hmessages hconv ⟨hrole.2.trans hrole.1.symm, hplace⟩ cid
  | moved id r r' hm hmove => exact places_congr hm.messages
  | delta id r r' m m' e text hd =>
      exact places_replaced hd.messages hd.messageSame.2.2 hd.messagePlace cid
  | ended id r r' c c' m m' e he =>
      exact places_replaced he.messages he.messageSame.2.2 he.messagePlace cid

theorem Effects.places {who : Caller} (heff : Effects who s s')
    (hsize : s'.messages.nextId = s.messages.nextId) (cid : Nat) :
    places s' cid = places s cid := by
  cases heff with
  | one heff => exact heff.places hsize cid
  | sweep _ hsweep =>
      clear hsize
      induction hsweep with
      | refl => rfl
      | tail _ hswept ih =>
          obtain ⟨j, x, x', c, c', m, m', e, he⟩ := hswept
          exact (places_replaced he.messages he.messageSame.2.2 he.messagePlace cid).trans ih

/-- An operation adds a turn to a conversation, which a newly accepted submit
does, or none at all. -/
theorem perform_places {book : Catalog.PriceBook} (hinv : ChatInv s) {op : Op}
    (h : op.perform book s = .ok s') :
    (∀ cid, places s' cid = places s cid)
      ∨ ∃ now catalog tenantId actorUserId conversationId content key hash x,
        op = .submit now catalog tenantId actorUserId conversationId content key hash
        ∧ submit now catalog book tenantId actorUserId conversationId content key hash s
          = .ok x
        ∧ x.1.replayed = false
        ∧ ∀ cid, (places s' cid).length
          = (places s cid).length + if cid = conversationId then 2 else 0 := by
  have heff := perform_effects hinv h
  by_cases haccepts : op.accepts = false
  · exact Or.inl (heff.places (heff.messages_size (perform_size haccepts h)))
  · cases op with
    | submit now catalog tenantId actorUserId conversationId content key hash =>
        simp only [Op.perform, bind_eq_ok, pure_eq_ok] at h
        obtain ⟨x, hx, rfl⟩ := h
        obtain ⟨hsame, -⟩ | ⟨c, mu, m, ev, -, -, hmessages, -, -, -, hmu, hm, -, -⟩ :=
          submit_said hx
        · exact Or.inl fun cid => places_congr hsame
        by_cases hseen : x.1.replayed = true
        · exact Or.inl fun cid => places_congr (submit_replayed hx hseen)
        · refine Or.inr ⟨_, _, _, _, _, _, _, _, x, rfl, hx, Bool.not_eq_true _ ▸ hseen,
            fun cid => ?_⟩
          rw [places, transcript_insert m hmessages, Table.entries_insert, List.filter_append,
            hm]
          by_cases hcid : conversationId = cid
          · subst hcid
            simp [places, transcript, hmu]
          · simp [places, transcript, hmu, hcid, Ne.symm hcid]
    | regenerate now catalog tenantId actorUserId conversationId messageId key hash =>
        simp only [Op.perform, bind_eq_ok, pure_eq_ok] at h
        obtain ⟨x, hx, rfl⟩ := h
        exact Or.inl (heff.places (regenerate_messages_size hx))
    | create | stop | claimQueued | requeueClaimed | checkLeaseAndStop | appendDelta
    | markCompleted | markStopped | markFailed | markSubmittedUnknown
    | reconcileExpiredOnce | billing => exact absurd rfl haccepts

/-- A process makes no call of the API. -/
theorem Process.call_isApi {p : Process} {env : Env} {op : Op}
    (h : p.call cfg env s = some op) : op.isApi = false := by
  cases hpc : p.pc with
  | releasing | capture =>
      simp only [Process.call, hpc] at h
      obtain ⟨reservationId, -, rfl⟩ := Option.map_eq_some_iff.mp h
      rfl
  | begin | prepare | openStream | next | requeued | ended =>
      simp only [Process.call, hpc] at h
      cases h
  | firstCheck | secondCheck | checkChunk | finalCheck | requeue | append | stopping
  | complete | failing | markingUnknown =>
      simp only [Process.call, hpc, Option.some.injEq] at h
      subst h
      rfl

/-- A submit that goes on to add a turn finds room for its two messages. -/
def Act.Roomy (book : Catalog.PriceBook) (count : Nat) (w : World) : Act → Prop
  | .api (.submit now catalog tenantId actorUserId conversationId content key hash) _ =>
      ∀ x, submit now catalog book tenantId actorUserId conversationId content key hash
          w.store = .ok x →
        x.1.replayed = false → (transcript w.store conversationId).length + 2 ≤ count
  | _ => True

/-- No transcript is longer than `count`. -/
def TurnsInv (count : Nat) (w : World) : Prop :=
  ∀ cid, (transcript w.store cid).length ≤ count

theorem length_places_eq (s : Store) (cid : Nat) :
    (places s cid).length = (transcript s cid).length :=
  List.length_map _

theorem TurnsInv.act {count : Nat} (h : TurnsInv count w) (hinv : ChatInv w.store)
    (ha : a.Roomy cfg.book count w) : TurnsInv count (worldStep cfg w a) := by
  intro cid
  rcases worldStep_op cfg w a with ⟨hsame, -⟩ | ⟨op, hop, hs⟩
  · rw [transcript_congr hsame]
    exact h cid
  · rw [hs]
    unfold step
    split
    · next s' hperform =>
        rw [← length_places_eq]
        rcases perform_places hinv hperform with hsame | ⟨now, catalog, tenantId, actorUserId,
          conversationId, content, key, hash, x, rfl, hx, hnew, hlength⟩
        · rw [hsame cid, length_places_eq]
          exact h cid
        · rw [hlength cid, length_places_eq]
          split
          · next heq =>
              subst heq
              cases a with
              | api op' hapi =>
                  obtain rfl := Option.some.inj hop
                  exact ha x hx hnew
              | claim => cases hop
              | settle => cases hop
              | work pid env =>
                  obtain ⟨p, hp, hcall⟩ := Option.bind_eq_some_iff.mp hop
                  cases Process.call_isApi hcall
          · exact h cid
    · exact h cid

-- ============================================================== snapshot

/-- The rows of a message table that a conversation shows are part of its
transcript. -/
theorem messageRows_length (tenantId cid : Nat) (s : Store) :
    (messageRows tenantId cid s).length ≤ (transcript s cid).length := by
  unfold messageRows transcript Table.ordered
  rw [List.length_insertionSort]
  refine (List.monotone_filter_right _ fun e he => ?_).length_le
  simp only [Bool.and_eq_true] at he
  exact he.1.2

/-- The title shown is never empty and never too long. -/
theorem ConversationRow.shownTitle_within (row : ConversationRow) :
    lengthWithin 240 row.shownTitle = true := by
  have hne : orText row.title (orText (some row.product.displayName) "新对话") ≠ "" := by
    have hinner : orText (some row.product.displayName) "新对话" ≠ "" := by
      unfold orText
      dsimp only
      split
      · decide
      · assumption
    unfold orText
    split
    · split
      · exact hinner
      · assumption
    · exact hinner
  have hpos : 0 < (orText row.title (orText (some row.product.displayName) "新对话")).toList.length := by
    rw [List.length_pos_iff]
    exact fun hnil => hne (String.toList_eq_nil_iff.mp hnil)
  simp only [lengthWithin, PyStr.len, ConversationRow.shownTitle, String.toList_ofList,
    List.length_take, Bool.and_eq_true, decide_eq_true_eq]
  omega

/-- What the three reads have to find. -/
structure Snapshot (row : ConversationRow) (tenantId : Nat) (atMessages atRequests : Store) :
    Prop where
  productKey : lengthWithin 200 row.product.modelKey = true
  contents : ∀ mid m, atMessages.messages.get mid = some m → PyStr.len m.content ≤ 1000000
  count : (transcript atMessages row.conversationId).length ≤ 20000
  /-- The request the conversation points to has its first event. -/
  active : ∀ id, row.conversation.activeInferenceRequestId = some id →
    ∃ r, atRequests.requests.get id = some r ∧ r.tenantId = tenantId
      ∧ r.conversationId = row.conversationId ∧ 0 ≤ r.lastEventSequence

theorem Snapshot.find {row : ConversationRow} {tenantId : Nat} {atMessages atRequests : Store}
    (h : Snapshot row tenantId atMessages atRequests)
    (hid : row.conversation.activeInferenceRequestId = some id) :
    ∃ e, (requestRows tenantId row.conversationId atRequests).find? (fun e => e.1 == id) = some e
      ∧ 0 ≤ e.2.lastEventSequence := by
  obtain ⟨r, hr, htenant, hcid, hlast⟩ := h.active id hid
  have hmem : (id, r) ∈ requestRows tenantId row.conversationId atRequests := by
    rw [requestRows, Table.mem_ordered]
    exact ⟨hr, by simp [htenant, hcid]⟩
  cases hfind : (requestRows tenantId row.conversationId atRequests).find?
      (fun e => e.1 == id) with
  | none =>
      have := List.find?_eq_none.mp hfind _ hmem
      simp at this
  | some e =>
      refine ⟨e, rfl, ?_⟩
      have hkey : e.1 = id := by simpa using List.find?_some hfind
      have hget := (Table.mem_ordered.mp (List.mem_of_find?_eq_some hfind)).1
      rw [hkey] at hget
      obtain rfl := Option.some.inj (hr.symm.trans hget)
      exact hlast

/-- Then the conversation can be read. -/
theorem Snapshot.isOk {row : ConversationRow} {tenantId : Nat} {atMessages atRequests : Store}
    (h : Snapshot row tenantId atMessages atRequests) :
    ∃ response, getConversation row tenantId atMessages atRequests = .ok response := by
  -- the record: the active request, if any, is found
  have hrecord : ∃ active : Option InferenceRequest,
      (∀ r, active = some r → 0 ≤ r.lastEventSequence)
      ∧ materialize row tenantId atMessages atRequests = .ok
        { conversationId := row.conversationId, tenantId
          productModelId := row.product.modelKey, title := row.shownTitle
          messages := (messageRows tenantId row.conversationId atMessages).map
            (messageRecord (requestRows tenantId row.conversationId atRequests))
          updatedAt := row.conversation.updatedAt
          activeRequestId := active.map (·.requestId)
          activeRequestCursor := active.map (·.lastEventSequence) } := by
    cases hid : row.conversation.activeInferenceRequestId with
    | none =>
        refine ⟨none, by simp, ?_⟩
        simp only [materialize, materializeLoaded, hid]
        rfl
    | some id =>
        obtain ⟨e, he, hlast⟩ := h.find hid
        refine ⟨some e.2, fun r hr => by cases hr; exact hlast, ?_⟩
        simp only [materialize, materializeLoaded, hid, he]
        rfl
  obtain ⟨active, hactive, hrecord⟩ := hrecord
  -- its messages: each is short enough, and they are not too many
  generalize hm : (messageRows tenantId row.conversationId atMessages).map
    (messageRecord (requestRows tenantId row.conversationId atRequests)) = records at hrecord
  obtain ⟨messages, hmessages⟩ : ∃ messages,
      (records.filter fun m => m.role.shown).mapM conversationMessage = .ok messages := by
    refine mapM_isOk_iff.mpr fun m hmem => ?_
    have hmem := List.mem_of_mem_filter hmem
    rw [← hm] at hmem
    obtain ⟨e, he, rfl⟩ := List.mem_map.mp hmem
    have hlen := h.contents e.1 e.2 (Table.mem_ordered.mp he).1
    simp only [conversationMessage, bind_eq_ok, raiseIf_eq_ok, pure_eq_ok, not_lt]
    exact ⟨_, (), hlen, rfl⟩
  have hcount : messages.length ≤ 20000 := by
    have hrecords : records.length ≤ 20000 := by
      rw [← hm, List.length_map]
      exact (messageRows_length _ _ _).trans h.count
    rw [mapM_length hmessages]
    exact (List.length_filter_le _ _).trans hrecords
  have hcursor : ¬ (active.map (·.lastEventSequence)).any (fun c => decide (c < -1)) = true := by
    cases active with
    | none => simp
    | some r =>
        have := hactive r rfl
        simp only [Option.map_some, Option.any_some, decide_eq_true_eq]
        omega
  simp only [getConversation, bind_eq_ok, mapError_eq_ok, conversationResponse, raiseIf_eq_ok,
    pure_eq_ok]
  refine ⟨_, _, hrecord, messages, hmessages, (), ?_, (), ?_, (), ?_, (), hcursor, (), ?_, rfl⟩
  · simp [h.productKey]
  · simp [row.shownTitle_within]
  · omega
  · cases active <;> simp

-- ================================================================== runs

/-- The user's requests have passed the contract of the API. -/
def Act.Admitted : Act → Prop
  | .api op _ => op.validated
  | _ => True

theorem Act.Admitted.limited (h : a.Admitted) (hlimit : 64000 ≤ limit) : a.Says limit := by
  cases a with
  | api op hapi =>
      cases op with
      | submit now catalog tenantId actorUserId conversationId content key hash =>
          simp only [Act.Admitted, Op.validated, sendMessageRequest, bind_eq_ok, raiseIf_eq_ok,
            not_lt] at h
          obtain ⟨-, -, -, hlen, -⟩ := h
          exact hlen.trans hlimit
      | _ => trivial
  | _ => trivial

/-- Every act is an effect on the store. -/
theorem worldStep_effects (cfg : Config) (hinv : ChatInv w.store) (a : Act) :
    ∃ who, Effects who w.store (worldStep cfg w a).store := by
  have hacted := worldStep_acted cfg hinv a
  generalize worldStep cfg w a = w' at hacted
  cases hacted with
  | outside a who s' heff => exact ⟨who, heff⟩
  | settled a now tenantId reservationId capture s' hs =>
      subst hs
      exact ⟨_, step_effects cfg.book hinv
        (.billing (settleCall cfg.book w.store now tenantId reservationId capture))⟩
  | started a now e r r' s' hc heff => exact ⟨_, heff⟩
  | worked pid env p p' s' hp hstep =>
      obtain ⟨who, heff, -⟩ := (workerStep_wrote hstep).effects hinv
      exact ⟨who, heff⟩

/-- What a run keeps while its acts stay within the limits. -/
structure ReadableInv (cfg : Config) (w : World) : Prop where
  stream : StreamInv cfg w
  retold : RetoldInv w
  names : NamesInv w.store
  text : TextInv 1000000 w
  events : EventsInv 64000 1000000 w
  turns : TurnsInv 20000 w

/-- What an act has to do with the limits of the readers: it appends no
delta of more than 64000 characters and makes no answer of more than
1000000, and it finds room for its turn among 20000 messages. -/
structure Act.Readable (book : Catalog.PriceBook) (w : World) (a : Act) : Prop where
  within : a.Within 64000 1000000 w
  roomy : a.Roomy book 20000 w

theorem ReadableInv.act (h : ReadableInv cfg w) (hadmitted : a.Admitted)
    (ha : a.Readable cfg.book w) : ReadableInv cfg (worldStep cfg w a) := by
  have hacted := worldStep_acted cfg h.stream.fleet.chat a
  obtain ⟨who, heff⟩ := worldStep_effects cfg h.stream.fleet.chat a
  exact
    { stream := h.stream.acted hacted
      retold := h.retold.acted h.stream hacted
      names := (heff.carry h.stream.fleet.chat
        (fun hinv heff hn => NamesInv.effect hn hinv.log heff) h.names).2
      text := h.text.act h.retold h.stream (hadmitted.limited (by decide)) ha.within
      events := h.events.act h.text ha.within
      turns := h.turns.act h.stream.fleet.chat ha.roomy }

theorem WorldOpening.readableInv (h : WorldOpening w)
    (hempty : w.store.messages = Table.empty) : ReadableInv cfg w where
  stream := h.streamInv cfg
  retold := h.retoldInv
  names id r hr := by simp [h.store.requests] at hr
  text :=
    { messages := fun mid m hm => by simp [hempty] at hm
      processes := fun pid p hp => by simp [h.processes] at hp
      points := fun pid p point hp => by simp [h.processes] at hp }
  events e he := by simp [h.store.events, Table.empty] at he
  turns cid := by simp [transcript, hempty, Table.empty, Table.entries]

theorem readableInv_run (h : WorldOpening w) (hempty : w.store.messages = Table.empty)
    {acts : List Act} (hadmitted : ∀ a ∈ acts, a.Admitted)
    (hgood : RunAll (worldStep cfg) (Act.Readable cfg.book) w acts) :
    ReadableInv cfg (run (worldStep cfg) w acts) := by
  have hinv : ∀ w, ReadableInv cfg w → RunAll (worldStep cfg) (Act.Readable cfg.book) w acts →
      ReadableInv cfg (run (worldStep cfg) w acts) := by
    clear hgood
    induction acts with
    | nil => exact fun w hw _ => hw
    | cons a acts ih =>
        intro w hw hgood
        refine ih (fun b hb => hadmitted b (List.mem_cons_of_mem a hb)) _ ?_ hgood.2
        exact hw.act (hadmitted a List.mem_cons_self) hgood.1
  exact hinv w (h.readableInv hempty) hgood

/-- A request stays what it is while others act, and its log only grows. -/
theorem logged_run (cfg : Config) (hinv : ChatInv w.store)
    (hr : w.store.requests.get id = some r) (acts : List Act) :
    Logged id r (w.store.log id) (run (worldStep cfg) w acts).store := by
  have hkept : ∀ x a, ChatInv (World.store x) ∧ Logged id r (w.store.log id) x.store →
      ChatInv (worldStep cfg x a).store
        ∧ Logged id r (w.store.log id) (worldStep cfg x a).store := by
    intro x a ⟨hx, hlogged⟩
    obtain ⟨who, heff⟩ := worldStep_effects cfg hx a
    exact heff.carry hx (fun _ heff hl => Logged.effect hl heff) hlogged
  exact (run_invariant hkept ⟨hinv, Logged.now hr⟩ acts).2

/-- In every run whose acts stay within the limits of the readers, every
event of every log passes the validation of the stream in its turn, and a
conversation can be read: its row at one moment, its messages at a later
one and its requests at a later one still. -/
theorem conversation_readable (h : WorldOpening w) (hempty : w.store.messages = Table.empty)
    {acts : List Act} (hadmitted : ∀ a ∈ acts, a.Admitted)
    (hgood : RunAll (worldStep cfg) (Act.Readable cfg.book) w acts) :
    (∀ id r (i : Nat) row, (run (worldStep cfg) w acts).store.requests.get id = some r →
      ((run (worldStep cfg) w acts).store.log id)[i]? = some row →
      validateEvent row (requestRecord id r) r.conversationId i (decide (i = 0))
        ((((run (worldStep cfg) w acts).store.log id).take i).any
          fun e => e.body.terminal) = .ok ())
    ∧ ∀ as bs cs, acts = as ++ bs ++ cs →
      ∀ catalog title tenantId actorUserId conversationId row,
        conversationRow catalog title tenantId actorUserId conversationId
          (run (worldStep cfg) w as).store = some row →
        lengthWithin 200 row.product.modelKey = true →
        ∃ response, getConversation row tenantId (run (worldStep cfg) w (as ++ bs)).store
          (run (worldStep cfg) w acts).store = .ok response := by
  have hinv := readableInv_run h hempty hadmitted hgood
  refine ⟨fun id r i row hr hrow => ?_, ?_⟩
  · exact streamable hinv.events hinv.stream.fleet.chat hinv.names hr hrow
  · rintro as bs cs rfl catalog title tenantId actorUserId conversationId row hrow hkey
    have hgood₂ := (runAll_append.mp hgood).1
    have hinv₂ := readableInv_run h hempty
      (fun a ha => hadmitted a (List.mem_append_left _ ha)) hgood₂
    have hinv₁ := readableInv_run h hempty
      (fun a ha => hadmitted a (List.mem_append_left _ (List.mem_append_left _ ha)))
      (runAll_append.mp hgood₂).1
    simp only [conversationRow, Option.bind_eq_bind, Option.bind_eq_some_iff, Option.pure_def,
      Option.some.injEq] at hrow
    obtain ⟨c, hc, product, hproduct, rfl⟩ := hrow
    obtain ⟨hget, howner⟩ := Option.filter_eq_some_iff.mp hc
    simp only [Bool.and_eq_true, beq_iff_eq] at howner
    refine Snapshot.isOk ⟨hkey, hinv₂.text.messages, hinv₂.turns _, fun id hid => ?_⟩
    -- the request pointed to is there, and stays
    obtain ⟨r, hr, hcid, htenant, -⟩ :=
      hinv₁.stream.fleet.chat.pointer.sound conversationId c id hget hid
    obtain ⟨-, r', hr', hsame⟩ := logged_run cfg hinv₁.stream.fleet.chat hr (bs ++ cs)
    rw [← run_append, ← List.append_assoc] at hr'
    refine ⟨r', hr', hsame.tenantId.trans (htenant.trans howner.1),
      hsame.conversationId.trans hcid, ?_⟩
    have hwf := hinv.stream.fleet.chat.log.wellFormed id r' hr'
    obtain ⟨first, rest, hlog, -⟩ := hwf.opened
    have hcounter := hwf.counter
    rw [hlog, List.length_cons] at hcounter
    omega

/-- The bounds on what a process appends, as they can be evaluated. -/
def Act.brief (most limit : Nat) (w : World) : Act → Bool
  | .work pid _ => (w.processes.get pid).all fun p =>
      match p.pc with
      | .append chunk => PyStr.len chunk.delta ≤ most
          && PyStr.len p.content + PyStr.len chunk.delta ≤ limit
      | _ => true
  | _ => true

theorem Act.within_of_brief {most limit : Nat} (h : a.brief most limit w = true) :
    a.Within most limit w := by
  cases a with
  | work pid env =>
      rintro p chunk ⟨hp, hpc, -⟩
      simpa [Act.brief, hp, hpc] using h
  | _ => trivial

/-- And the room a submit finds. -/
def Act.spacious (count : Nat) (w : World) : Act → Bool
  | .api (.submit _ _ _ _ conversationId _ _ _) _ =>
      (transcript w.store conversationId).length + 2 ≤ count
  | _ => true

theorem Act.roomy_of_spacious (book : Catalog.PriceBook) {count : Nat}
    (h : a.spacious count w = true) : a.Roomy book count w := by
  cases a with
  | api op hapi =>
      cases op with
      | submit now catalog tenantId actorUserId conversationId content key hash =>
          exact fun x hx hnew => of_decide_eq_true h
      | _ => trivial
  | _ => trivial

theorem conversation_readable_sample :
    WorldOpening sampleWorld ∧ ∃ row response,
      getConversation row 1 (run (worldStep sampleConfig) sampleWorld sampleActs).store
        (run (worldStep sampleConfig) sampleWorld sampleActs).store = .ok response := by
  refine ⟨sampleWorld_opening, ?_⟩
  have hadmitted : ∀ a ∈ sampleActs, a.Admitted := by
    intro a ha
    simp only [sampleActs, List.mem_append, List.mem_cons, List.not_mem_nil, or_false,
      List.mem_replicate] at ha
    rcases ha with (rfl | rfl | rfl) | ⟨-, rfl⟩
    · rfl
    · trivial
    · trivial
    · trivial
  have hgood : RunAll (worldStep sampleConfig) (Act.Readable sampleConfig.book) sampleWorld
      sampleActs :=
    RunAll.mono (fun _ _ h => ⟨Act.within_of_brief h.1, Act.roomy_of_spacious _ h.2⟩)
      (by decide +kernel : RunAll (worldStep sampleConfig)
        (fun w a => a.brief 64000 1000000 w = true ∧ a.spacious 20000 w = true)
        sampleWorld sampleActs)
  obtain ⟨row, hrow⟩ := Option.isSome_iff_exists.mp
    (by decide +kernel : (conversationRow sampleCatalog none 1 2 0
      (run (worldStep sampleConfig) sampleWorld sampleActs).store).isSome = true)
  have hkey : lengthWithin 200 row.product.modelKey = true := by
    have hall : (conversationRow sampleCatalog none 1 2 0
        (run (worldStep sampleConfig) sampleWorld sampleActs).store).all
          (fun row => lengthWithin 200 row.product.modelKey) = true := by
      decide +kernel
    rw [hrow] at hall
    exact hall
  obtain ⟨response, hresponse⟩ := (conversation_readable sampleWorld_opening rfl hadmitted
    hgood).2 sampleActs [] [] (by simp) sampleCatalog none 1 2 0 row hrow hkey
  exact ⟨row, response, by simpa using hresponse⟩

-- ============================================================== too long

theorem worldStep_work {pid : Nat} {env : Env} {p p' : Process}
    (hp : w.processes.get pid = some p) (hstep : workerStep cfg env p w.store = (p', s')) :
    (worldStep cfg w (.work pid env)).store = s'
      ∧ (worldStep cfg w (.work pid env)).processes.get pid = some p' := by
  simp [worldStep, hp, hstep]

/-- A process that is about to open its stream, to which the sample
environment answers with a delta its store would take. -/
def aboutToAppend (w : World) : Bool :=
  (w.processes.get 0).any fun p =>
    p.pc == .openStream && p.providerRequestId == none
      && p.current.deployment.providerModelId == "qwen-plus"
      && (let (check, s) := checkLeaseAndStop 60 (p.clock + 1) p.current w.store
          check.leaseValid && !check.stopRequested
            && (match appendDelta 60 (p.clock + 2) (p.clock + 2) p.current
                  (p.current.lastEventSequence + 1) "x" (some "req-1") s with
                | .ok (some _, _) => true
                | _ => false))

/-- What a delta says makes no difference to whether it is taken. -/
theorem appendDelta_any {ext now lockedNow : Nat} {e : Execution} {seq n : Int}
    {delta delta' : String} {provider : Option String} {s₁ : Store}
    (h : appendDelta ext now lockedNow e seq delta provider s = .ok (some n, s₁))
    (hne : delta' ≠ "") :
    n = seq ∧ ∃ s₂ r, appendDelta ext now lockedNow e seq delta' provider s
        = .ok (some seq, s₂)
      ∧ s₂.events = s.events.insert (executionEvent now e r seq (.delta delta')) := by
  simp only [appendDelta, bind_eq_ok, raiseIf_eq_ok] at h
  obtain ⟨u, -, h⟩ := h
  split at h
  · cases pure_eq_ok.mp h
  · next r hr =>
      split at h
      · cases pure_eq_ok.mp h
      · next m hm =>
          simp only [bind_eq_ok, raiseIf_eq_ok, pure_eq_ok, Prod.mk.injEq] at h
          obtain ⟨u', htaken, hn, -⟩ := h
          refine ⟨(Option.some.inj hn).symm, ?_⟩
          -- the store is the one that the next goal writes
          apply Exists.intro
          refine ⟨r, ?taken, ?written⟩
          case taken =>
            simp only [appendDelta, bind_eq_ok, raiseIf_eq_ok]
            refine ⟨(), hne, ?_⟩
            rw [hr]
            simp only [hm, bind_eq_ok, raiseIf_eq_ok]
            exact ⟨(), htaken, rfl⟩
          case written => rfl

/-- The decoder of a provider whose first delta is `text`. -/
def decodeAs (text line : String) : Option StreamResponse :=
  if line = "one" then
    some { model := "qwen-plus", choices := [⟨some text, none⟩], usage := none }
  else none

def configAs (text : String) : Config := { sampleConfig with decode := decodeAs text }

theorem firstItem (text : String) :
    ∃ rest, streamItems (decodeAs text) "qwen-plus" sampleFeed
      = .chunk ⟨"req-1", "qwen-plus", text, none, none⟩ :: rest := by
  have hdata : dataOf "data: one" = some "one" := by decide +kernel
  have hone : decodeAs text "one"
      = some { model := "qwen-plus", choices := [⟨some text, none⟩], usage := none } := rfl
  have hid : requestIdOf { requestId := some "req-1" } none = some "req-1" := by
    decide +kernel
  have hchunk : chunkOf "qwen-plus" (some "req-1") false
      { model := "qwen-plus", choices := [⟨some text, none⟩], usage := none }
      = .ok (⟨"req-1", "qwen-plus", text, none, none⟩, false) := rfl
  refine ⟨streamLines (decodeAs text) "qwen-plus" (some "req-1") false false false
    ["", "data: two", "data: [DONE]"], ?_⟩
  have hlines : streamItems (decodeAs text) "qwen-plus" sampleFeed
      = streamLines (decodeAs text) "qwen-plus" (some "req-1") false false false
        ["data: one", "", "data: two", "data: [DONE]"] := by
    simp [streamItems, sampleFeed, Answer.isSuccess, hid]
  rw [hlines, streamLines]
  simp [hdata, hone, hchunk]

/-- The environment of a sample step. -/
def sampleEnv : Env :=
  { elapsed := 1, wait := 0, db := .committed, admission := .granted
    feed := sampleFeed, interrupted := false }

/-- Four steps bring the delta into the log. -/
theorem long_delta (text : String) (hne : text ≠ "") (h : aboutToAppend w = true) :
    ∃ x ∈ (run (worldStep (configAs text)) w (List.replicate 4 sampleWork)).store.events.rows,
      x.body = .delta text := by
  rw [aboutToAppend, Option.any_eq_true] at h
  obtain ⟨p, hp, h⟩ := h
  simp only [Bool.and_eq_true, beq_iff_eq, Bool.not_eq_true'] at h
  obtain ⟨⟨⟨hpc, hid⟩, hmodel⟩, ⟨hvalid, hstop⟩, hx⟩ := h
  rcases hcheck : checkLeaseAndStop 60 (p.clock + 1) p.current w.store with ⟨check, s₁⟩
  rw [hcheck] at hvalid hstop hx
  dsimp only at hvalid hstop hx
  obtain ⟨n, s₂, hn⟩ : ∃ n s₂, appendDelta 60 (p.clock + 2) (p.clock + 2) p.current
      (p.current.lastEventSequence + 1) "x" (some "req-1") s₁ = .ok (some n, s₂) := by
    split at hx
    · next hok => exact ⟨_, _, hok⟩
    · cases hx
  obtain ⟨-, s₃, r, hr, hevents⟩ := appendDelta_any hn hne
  obtain ⟨rest, hitems⟩ := firstItem text
  let chunk : TextStreamChunk := ⟨"req-1", "qwen-plus", text, none, none⟩
  -- the stream is opened, its first chunk read, the lease checked
  let p₁ : Process :=
    { p with feed := some sampleFeed, rest := .chunk chunk :: rest, pc := .next }
  let p₂ : Process := { p₁ with rest := rest, pc := .checkChunk chunk }
  let p₃ : Process :=
    { p₂ with clock := p.clock + 1, providerRequestId := some "req-1", pc := .append chunk }
  have h₁ : workerStep (configAs text) sampleEnv p w.store = (p₁, w.store) := by
    simp only [workerStep, hpc, hmodel]
    rw [show sampleEnv.feed = sampleFeed from rfl, show (configAs text).decode = decodeAs text
      from rfl, hitems]
  have h₂ : workerStep (configAs text) sampleEnv p₁ w.store = (p₂, w.store) := rfl
  have h₃ : workerStep (configAs text) sampleEnv p₂ w.store = (p₃, s₁) := by
    have hsome : coherentProviderRequestId none "req-1" = some "req-1" := by decide
    simp only [workerStep, leaseCheck, attempt, sampleEnv, configAs, sampleConfig, p₂, p₁,
      hcheck, hvalid, hstop, hid, hsome, chunk, if_neg hne]
    simp [p₃, p₂, p₁, chunk]
  rcases h₄ : workerStep (configAs text) sampleEnv p₃ s₁ with ⟨p₄, s₄⟩
  have hs₄ : s₄ = s₃ := by
    rw [show s₄ = (workerStep (configAs text) sampleEnv p₃ s₁).2 from by rw [h₄]]
    have hr' : appendDelta 60 (p.clock + 1 + 1) (p.clock + 1 + 1 + 0) p.current
        (p.current.lastEventSequence + 1) text (some "req-1") s₁
        = .ok (some (p.current.lastEventSequence + 1), s₃) := hr
    simp only [workerStep, attempt, sampleEnv, configAs, sampleConfig, p₃, p₂, p₁, chunk, hr']
  -- and the delta is stored
  have hstep : ∀ {v : World} {q q' : Process} {s s' : Store}, v.store = s →
      v.processes.get 0 = some q → workerStep (configAs text) sampleEnv q s = (q', s') →
      (worldStep (configAs text) v sampleWork).store = s'
        ∧ (worldStep (configAs text) v sampleWork).processes.get 0 = some q' := by
    rintro v q q' _ s' rfl hq hstep
    exact worldStep_work hq hstep
  obtain ⟨hs₁, hp₁⟩ := hstep rfl hp h₁
  obtain ⟨hs₂, hp₂⟩ := hstep hs₁ hp₁ h₂
  obtain ⟨hs₃, hp₃⟩ := hstep hs₂ hp₂ h₃
  obtain ⟨hlast, -⟩ := hstep hs₃ hp₃ h₄
  refine ⟨executionEvent (p.clock + 2) p.current r (p.current.lastEventSequence + 1)
    (.delta text), ?_, rfl⟩
  show _ ∈ (worldStep (configAs text) _ sampleWork).store.events.rows
  rw [hlast, hs₄, hevents, Table.rows_insert]
  exact List.mem_append_right _ (List.mem_singleton.mpr rfl)

/-- A delta longer than the contract of a stream event admits. -/
def longText : String := String.ofList (List.replicate 64001 'a')

theorem len_replicate (n : Nat) (c : Char) :
    PyStr.len (String.ofList (List.replicate n c)) = n := by
  simp [PyStr.len]

theorem longText_len : PyStr.len longText = 64001 := len_replicate _ _

theorem longText_ne : longText ≠ "" := fun h => by
  have := longText_len
  rw [h, len_empty] at this
  omega

/-- The request is accepted and its process comes to open its stream. -/
def longStart : List Act :=
  [.api (sampleSubmit 0 "hi" "k1") sampleSubmit_isApi,
   .claim 1 sampleCatalog (fun _ => false) "worker" 60 none none]
    ++ List.replicate 4 sampleWork

/-- A provider may send such a delta: it is stored, and the stream of the
request fails at it from then on. -/
theorem conversation_unreadable :
    ¬ ∀ (cfg : Config) (w : World), WorldOpening w → w.store.messages = Table.empty →
      ∀ acts : List Act, (∀ a ∈ acts, a.Admitted) → ∀ id r (i : Nat) row,
        (run (worldStep cfg) w acts).store.requests.get id = some r →
        ((run (worldStep cfg) w acts).store.log id)[i]? = some row →
        validateEvent row (requestRecord id r) r.conversationId i (decide (i = 0))
          ((((run (worldStep cfg) w acts).store.log id).take i).any
            fun e => e.body.terminal) = .ok () := by
  intro hclaim
  let w₁ := run (worldStep (configAs longText)) sampleWorld longStart
  have habout : aboutToAppend w₁ = true := by decide +kernel
  obtain ⟨x, hx, hbody⟩ := long_delta longText longText_ne habout
  have hrun : run (worldStep (configAs longText)) sampleWorld
      (longStart ++ List.replicate 4 sampleWork)
      = run (worldStep (configAs longText)) w₁ (List.replicate 4 sampleWork) :=
    run_append ..
  have hadmitted : ∀ a ∈ longStart ++ List.replicate 4 sampleWork, a.Admitted := by
    intro a ha
    simp only [longStart, List.mem_append, List.mem_cons, List.not_mem_nil, or_false,
      List.mem_replicate] at ha
    rcases ha with ((rfl | rfl) | ⟨-, rfl⟩) | ⟨-, rfl⟩
    · rfl
    · trivial
    · trivial
    · trivial
  specialize hclaim (configAs longText) sampleWorld sampleWorld_opening rfl _ hadmitted
  rw [hrun] at hclaim
  generalize hw : run (worldStep (configAs longText)) w₁ (List.replicate 4 sampleWork) = w
    at hclaim hx
  have hinv : ChatInv w.store := by
    rw [← hw, ← hrun]
    exact (streamInv_run _ sampleWorld_opening _).fleet.chat
  have hlt := hinv.log.known x hx
  have hreq : ∃ r, w.store.requests.get x.inferenceRequestId = some r :=
    ⟨_, List.getElem?_eq_getElem hlt⟩
  obtain ⟨r, hr⟩ := hreq
  have hmem : x ∈ w.store.log x.inferenceRequestId :=
    List.mem_filter.mpr ⟨hx, by simp⟩
  obtain ⟨i, hi⟩ := List.getElem?_of_mem hmem
  have hok := hclaim x.inferenceRequestId r i x hr hi
  simp only [validateEvent, seq_eq_ok, raiseIf_eq_ok] at hok
  have hcontract := hok.2.1
  simp [eventContract, hbody, longText_len] at hcontract

end Mosaic.Chat
