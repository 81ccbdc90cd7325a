/-
Whether what was said can be sent to a provider again.

# Lengths

A user may say 64000 characters and an answer may grow to any length, but
the message a provider is sent has at most 8000. `completionRequest_isOk_iff`
says which histories a request can be built of: those whose other messages
are blank or short enough. Nothing else stands in the way, since the user's
turn is never blank (`SpokenInv`) and its role is known.

# Runs

`TextInv 8000` follows the acts that say and append no more than that; in
the stores they lead to every history is short.
-/
import Mosaic.Chat.Proofs.Readable

namespace Mosaic.Chat

open Lib Providers

variable {cfg : Config} {w : World} {a : Act} {s s' : Store} {e : Execution} {op : Op}
  {floatFits : String → Bool} {defaults : CompletionDefaults}

-- =============================================================== prompt

/-- A history that can be sent: every message but the one being answered
into is blank or short enough. -/
def Sendable (e : Execution) : Prop :=
  ∀ item ∈ e.history, item.messageId ≠ e.messageId →
    PyStr.blank item.content = true ∨ PyStr.len item.content ≤ 8000

theorem ofString_value (role : MessageRole) : (ChatRole.ofString role.value).isSome = true := by
  cases role <;> rfl

/-- A message is accepted if it is neither blank nor too long. -/
theorem chatMessage_isOk_iff (role : MessageRole) (content : String) :
    (∃ x, ChatMessage.build role.value content = .ok x)
      ↔ PyStr.blank content = false ∧ PyStr.len content ≤ 8000 := by
  obtain ⟨role', hrole⟩ := Option.isSome_iff_exists.mp (ofString_value role)
  have hcheck : chatMessageCheck content = .ok ()
      ↔ PyStr.blank content = false ∧ PyStr.len content ≤ 8000 := by
    simp only [chatMessageCheck, requireText, seq_eq_ok, raiseIf_eq_ok, Bool.not_eq_true,
      not_lt]
  have hbuild : (∃ x, certify (chatMessageCheck content) (ChatMessage.mk role' content) = .ok x)
      ↔ chatMessageCheck content = .ok () := certify_isOk_iff
  rw [← hcheck, ← hbuild]
  simp [ChatMessage.build, bind_eq_ok, hrole]

theorem completionMessages_isOk_iff (e : Execution) :
    (∃ messages, completionMessages e = .ok messages) ↔ Sendable e := by
  rw [completionMessages, promptMessages_eq, mapM_isOk_iff]
  constructor
  · intro h item hitem hid
    by_cases hblank : PyStr.blank item.content = true
    · exact Or.inl hblank
    · have hbuilt := h item (List.mem_filter.mpr ⟨hitem, by simp [hid, hblank]⟩)
      exact Or.inr ((chatMessage_isOk_iff _ _).mp hbuilt).2
  · intro h item hitem
    obtain ⟨hitem, hp⟩ := List.mem_filter.mp hitem
    simp only [Bool.and_eq_true, bne_iff_ne, Bool.not_eq_true', ne_eq] at hp
    refine (chatMessage_isOk_iff _ _).mpr ⟨hp.2, ?_⟩
    exact (h item hitem hp.1).resolve_left (by simp [hp.2])

/-- With a valid deployment and something to say, the history alone decides
whether a request can be built. -/
theorem completionRequest_isOk_iff (hdeployment : ValidDeployment floatFits defaults e.deployment)
    (hspoken : ∀ messages, completionMessages e = .ok messages → messages ≠ []) :
    (∃ request, completionRequest floatFits defaults e = .ok request) ↔ Sendable e := by
  rw [← completionMessages_isOk_iff]
  obtain ⟨temperature, tokens, hoptions, htemperature, htokens⟩ := hdeployment.options
  constructor
  · rintro ⟨request, h⟩
    simp only [completionRequest, bind_eq_ok] at h
    obtain ⟨messages, hmessages, -⟩ := h
    exact ⟨messages, hmessages⟩
  · rintro ⟨messages, hmessages⟩
    have hcheck : textCompletionCheck e.deployment.providerModelId messages = .ok () := by
      simp only [textCompletionCheck, seq_eq_ok, raiseIf_eq_ok]
      exact ⟨hdeployment.model, by simpa using hspoken messages hmessages⟩
    obtain ⟨request, hrequest⟩ : ∃ request,
        TextCompletionRequest.build e.deployment.providerModelId messages = .ok request :=
      certify_isOk_iff.mpr hcheck
    refine ⟨{ request, temperature, maxCompletionTokens := tokens }, ?_⟩
    simp only [completionRequest, bind_eq_ok, raiseIf_eq_ok, pure_eq_ok]
    exact ⟨messages, hmessages, (temperature, tokens), hoptions, request, hrequest, (),
      by simp [htemperature], (), by simp [htokens], rfl⟩

/-- What is not empty has something to say. -/
theorem spoken_item
    (hspoken : ∀ messages, completionMessages e = .ok messages → messages ≠ []) :
    ∃ item ∈ e.history, item.messageId ≠ e.messageId ∧ PyStr.blank item.content = false := by
  by_contra hnone
  have hfilter : e.history.filter
      (fun x => x.messageId != e.messageId && !PyStr.blank x.content) = [] := by
    refine List.filter_eq_nil_iff.mpr fun item hitem hp => hnone ⟨item, hitem, ?_⟩
    simpa using hp
  refine hspoken [] ?_ rfl
  rw [completionMessages, promptMessages_eq, hfilter]
  rfl

-- ================================================================= runs

/-- What a run keeps of its histories. -/
structure HistoryInv (cfg : Config) (w : World) : Prop where
  stream : StreamInv cfg w
  turns : TranscriptInv w.store
  spoken : SpokenInv w.store

/-- Whatever an act calls has passed the contract of the API. -/
theorem Act.op_validated (hadmitted : a.Admitted) (hop : a.op cfg w = some op) :
    op.validated := by
  cases a with
  | claim => cases hop
  | api op' hapi =>
      obtain rfl := Option.some.inj hop
      exact hadmitted
  | settle now tenantId reservationId capture =>
      obtain rfl := Option.some.inj hop
      trivial
  | work pid env =>
      obtain ⟨p, hp, hcall⟩ := Option.bind_eq_some_iff.mp hop
      have hapi := Process.call_isApi hcall
      cases op with
      | submit => cases hapi
      | _ => trivial

theorem HistoryInv.act (h : HistoryInv cfg w) (hadmitted : a.Admitted) :
    HistoryInv cfg (worldStep cfg w a) := by
  have hchat := h.stream.fleet.chat
  obtain ⟨who, heff⟩ := worldStep_effects cfg hchat a
  refine
    { stream := h.stream.acted (worldStep_acted cfg hchat a)
      turns := (heff.carry hchat
        (fun hinv heff ht => TranscriptInv.effect ht hinv heff) h.turns).2
      spoken := ?_ }
  obtain ⟨hsame, -⟩ | ⟨op, hop, hs⟩ := worldStep_op cfg w a
  · intro mid m hm
    exact h.spoken mid m (hsame ▸ hm)
  · rw [hs]
    exact h.spoken.step h.turns hchat (Act.op_validated hadmitted hop)

theorem historyInv_run (h : WorldOpening w) (hempty : w.store.messages = Table.empty)
    {acts : List Act} (hadmitted : ∀ a ∈ acts, a.Admitted) :
    HistoryInv cfg (run (worldStep cfg) w acts) := by
  have hopen : HistoryInv cfg w :=
    { stream := h.streamInv cfg
      turns := TranscriptInv.opening h.store hempty
      spoken := fun mid m hm => by simp [hempty] at hm }
  induction acts using List.reverseRecOn with
  | nil => exact hopen
  | append_singleton acts a ih =>
      rw [run_concat]
      exact (ih fun b hb => hadmitted b (by simp [hb])).act (hadmitted a (by simp))

/-- What is claimed has the user's turn to say. -/
theorem HistoryInv.spoken_claim (h : HistoryInv cfg w) {now : Nat}
    {catalog : Catalog.CatalogRows} {locked : Nat → Bool} {workerId : String}
    {leaseSeconds : Nat} {tenantId requestId : Option Nat}
    (hclaim : claimQueued now catalog locked workerId leaseSeconds tenantId requestId w.store
      = .ok (some e, s')) :
    ∀ messages, completionMessages e = .ok messages → messages ≠ [] := by
  intro messages hmessages
  have hchat := h.stream.fleet.chat
  obtain ⟨r, hr, hq, hmid, hcid, hhistory⟩ := claimQueued_execution hclaim
  obtain ⟨before, u, m, ha⟩ := claim_answering h.turns hchat hr hq hmid hcid
  have hprompt := completionMessages_eq h.turns hchat hr hq hhistory hcid ha
  have hmem : u ∈ transcript w.store e.conversationId := by
    rw [ha.transcript]
    simp
  have hspoken := h.spoken u.1 u.2 (mem_transcript.mp hmem).1 ha.user
  rw [hprompt] at hmessages
  obtain ⟨x, hx, -⟩ := promptOf_last ha.user hspoken hmessages
  rintro rfl
  cases hx

/-- A history is made of messages of the store. -/
theorem history_content {tenantId cid : Nat} {item : HistoryMessage}
    (h : item ∈ history s tenantId cid) :
    ∃ mid m, s.messages.get mid = some m ∧ m.content = item.content := by
  rw [history, List.mem_map] at h
  obtain ⟨x, hx, rfl⟩ := h
  exact ⟨x.1, x.2, (Table.mem_ordered.mp hx).1, rfl⟩

/-- An act says and appends no more than a provider takes. -/
structure Act.Resendable (w : World) (a : Act) : Prop where
  short : a.Says 8000
  within : a.Within 8000 8000 w

/-- In every run whose acts say and append no more than a provider takes, no
message is longer. -/
theorem textInv_run (h : WorldOpening w) (hempty : w.store.messages = Table.empty)
    {acts : List Act} (hgood : RunAll (worldStep cfg) Act.Resendable w acts) :
    TextInv 8000 (run (worldStep cfg) w acts) := by
  have hinv : ∀ w, StreamInv cfg w ∧ RetoldInv w ∧ TextInv 8000 w →
      RunAll (worldStep cfg) Act.Resendable w acts →
      TextInv 8000 (run (worldStep cfg) w acts) := by
    clear hgood
    induction acts with
    | nil => exact fun w hw _ => hw.2.2
    | cons a acts ih =>
        rintro w ⟨hstream, hret, htext⟩ hgood
        have hacted := worldStep_acted cfg hstream.fleet.chat a
        refine ih _ ⟨hstream.acted hacted, hret.acted hstream hacted, ?_⟩ hgood.2
        exact htext.act hret hstream hgood.1.short hgood.1.within
  refine hinv w ⟨h.streamInv cfg, h.retoldInv, ?_⟩ hgood
  exact
    { messages := fun mid m hm => by simp [hempty] at hm
      processes := fun pid p hp => by simp [h.processes] at hp
      points := fun pid p point hp => by simp [h.processes] at hp }

/-- Whatever is claimed in a store that users, workers and sweeps can lead
to, with a valid deployment: its request is built exactly if every message
of its history but the one being answered into is blank or has at most 8000
characters; and that is so of every run whose acts say and append no more. -/
theorem history_resendable (h : WorldOpening w) (hempty : w.store.messages = Table.empty)
    {acts : List Act} (hadmitted : ∀ a ∈ acts, a.Admitted) {now : Nat}
    {catalog : Catalog.CatalogRows} {locked : Nat → Bool} {workerId : String}
    {leaseSeconds : Nat} {tenantId requestId : Option Nat}
    (hclaim : claimQueued now catalog locked workerId leaseSeconds tenantId requestId
      (run (worldStep cfg) w acts).store = .ok (some e, s'))
    (hdeployment : ValidDeployment floatFits defaults e.deployment) :
    ((∃ request, completionRequest floatFits defaults e = .ok request) ↔ Sendable e)
      ∧ (RunAll (worldStep cfg) Act.Resendable w acts →
        ∃ request, completionRequest floatFits defaults e = .ok request) := by
  have hinv : HistoryInv cfg _ := historyInv_run h hempty hadmitted
  have hiff := completionRequest_isOk_iff hdeployment (hinv.spoken_claim hclaim)
  refine ⟨hiff, fun hgood => hiff.mpr fun item hitem _ => Or.inr ?_⟩
  obtain ⟨r, -, -, -, -, hhistory⟩ := claimQueued_execution hclaim
  rw [hhistory] at hitem
  obtain ⟨mid, m, hm, hcontent⟩ := history_content hitem
  rw [← hcontent]
  exact (textInv_run h hempty hgood).messages mid m hm

/-- Defaults that leave the options unset. -/
def sampleDefaults : CompletionDefaults := { temperature := none, maxCompletionTokens := none }

/-- A claim of the sample deployment, as far as it can be evaluated. -/
def claimsSample (s : Store) : Bool :=
  match claimQueued 1 sampleCatalog (fun _ => false) "worker" 60 none none s with
  | .ok (some e, _) =>
      e.deployment.providerModelId == "qwen-plus" && e.deployment.routingConfig.isEmpty
  | _ => false

theorem claimsSample_valid (h : claimsSample s = true) (floatFits : String → Bool) :
    ∃ e s', claimQueued 1 sampleCatalog (fun _ => false) "worker" 60 none none s
        = .ok (some e, s')
      ∧ ValidDeployment floatFits sampleDefaults e.deployment := by
  unfold claimsSample at h
  split at h
  · next e s' hclaim =>
      simp only [Bool.and_eq_true, beq_iff_eq, List.isEmpty_iff] at h
      refine ⟨e, s', hclaim, ?_, none, none, ?_, rfl, rfl⟩
      · rw [h.1]
        decide +kernel
      · rw [h.2]
        rfl
  · cases h

/-- The bound on what a submit says, as it can be evaluated. -/
def Act.terse (limit : Nat) : Act → Bool
  | .api (.submit _ _ _ _ _ content _ _) _ => PyStr.len content ≤ limit
  | _ => true

theorem Act.says_of_terse {limit : Nat} (h : a.terse limit = true) : a.Says limit := by
  cases a with
  | api op hapi =>
      cases op with
      | submit now catalog tenantId actorUserId conversationId content key hash =>
          show PyStr.len content ≤ limit
          exact of_decide_eq_true h
      | _ => trivial
  | _ => trivial

theorem secondSubmit_isApi : (sampleSubmit 20 "and now?" "k2").isApi = true := rfl

/-- A first message is answered, and another is sent. -/
def secondWords : List Act :=
  sampleActs ++ [.api (sampleSubmit 20 "and now?" "k2") secondSubmit_isApi]

/-- The claim of the second message loads the first answer, and its request is
built. -/
theorem history_resendable_sample :
    ∃ e request, completionRequest (fun _ => false) sampleDefaults e = .ok request
      ∧ e.history.map (fun item => (item.role, item.content))
        = [(.user, "hi"), (.assistant, "Hello"), (.user, "and now?"), (.assistant, "")] := by
  have hadmitted : ∀ a ∈ secondWords, a.Admitted := by
    intro a ha
    simp only [secondWords, sampleActs, List.mem_append, List.mem_cons, List.not_mem_nil,
      or_false, List.mem_replicate] at ha
    rcases ha with ((rfl | rfl | rfl) | ⟨-, rfl⟩) | rfl
    · rfl
    · trivial
    · trivial
    · trivial
    · rfl
  have hgood : RunAll (worldStep sampleConfig) Act.Resendable sampleWorld secondWords :=
    RunAll.mono (fun _ _ h => ⟨Act.says_of_terse h.1, Act.within_of_brief h.2⟩)
      (by decide +kernel : RunAll (worldStep sampleConfig)
        (fun w a => a.terse 8000 = true ∧ a.brief 8000 8000 w = true)
        sampleWorld secondWords)
  have hclaims : claimsSample
      (run (worldStep sampleConfig) sampleWorld secondWords).store = true := by
    decide +kernel
  obtain ⟨e, s', hclaim, hvalid⟩ := claimsSample_valid hclaims (fun _ => false)
  obtain ⟨request, hrequest⟩ :=
    (history_resendable sampleWorld_opening rfl hadmitted hclaim hvalid).2 hgood
  refine ⟨e, request, hrequest, ?_⟩
  have hhistory : (claimQueued 1 sampleCatalog (fun _ => false) "worker" 60 none none
      (run (worldStep sampleConfig) sampleWorld secondWords).store).toOption.map
        (fun x => x.1.map fun e => e.history.map fun item => (item.role, item.content))
      = some (some [(.user, "hi"), (.assistant, "Hello"), (.user, "and now?"),
        (.assistant, "")]) := by
    decide +kernel
  rw [hclaim] at hhistory
  exact Option.some.inj (Option.some.inj hhistory)

-- ============================================================== too long

/-- What a user says first. -/
def firstWords (content : String) : List Act := [.api (sampleSubmit 0 content "k1") rfl]

/-- A message a user may send and a provider is never sent. -/
def longWords : String := String.ofList (List.replicate 8001 'a')

theorem longWords_len : PyStr.len longWords = 8001 := len_replicate _ _

theorem blank_replicate {n : Nat} {c : Char} (hn : n ≠ 0) (hc : PyStr.isSpace c = false) :
    PyStr.blank (String.ofList (List.replicate n c)) = false := by
  simp [PyStr.blank, hn, hc]

theorem longWords_blank : PyStr.blank longWords = false :=
  blank_replicate (by decide) (by decide)

theorem longWords_admitted (a : Act) (ha : a ∈ firstWords longWords) : a.Admitted := by
  rw [firstWords, List.mem_singleton] at ha
  subst ha
  show sendMessageRequest longWords = .ok longWords
  simp only [sendMessageRequest, bind_eq_ok, raiseIf_eq_ok, pure_eq_ok, longWords_len,
    longWords_blank]
  exact ⟨(), by decide, (), by decide, (), by decide, trivial⟩

/-- Whatever the user's turn says was said by the submit. -/
theorem firstWords_said {mid : Nat} {m : Message}
    (hm : (run (worldStep cfg) sampleWorld (firstWords longWords)).store.messages.get mid
      = some m) (hblank : PyStr.blank m.content = false) : m.content = longWords := by
  have hwritten := step_written cfg.book sampleStore (sampleSubmit 0 longWords "k1")
  obtain (heq | heq) | ⟨m₀, hm₀, -⟩ := hwritten.messages mid m hm
  · exact heq
  · rw [heq] at hblank
    cases hblank
  · cases hm₀

/-- A user who says 8001 characters: the first execution of the
conversation finds no request to send. -/
theorem history_not_resendable :
    ¬ ∀ (cfg : Config) (w : World), WorldOpening w → w.store.messages = Table.empty →
      ∀ acts : List Act, (∀ a ∈ acts, a.Admitted) →
      ∀ now catalog locked workerId leaseSeconds tenantId requestId e s' floatFits defaults,
        claimQueued now catalog locked workerId leaseSeconds tenantId requestId
          (run (worldStep cfg) w acts).store = .ok (some e, s') →
        ValidDeployment floatFits defaults e.deployment →
        ∃ request, completionRequest floatFits defaults e = .ok request := by
  intro hall
  have hclaims : claimsSample
      (run (worldStep sampleConfig) sampleWorld (firstWords longWords)).store = true := by
    decide +kernel
  obtain ⟨e, s', hclaim, hvalid⟩ := claimsSample_valid hclaims (fun _ => false)
  have hinv : HistoryInv sampleConfig _ :=
    historyInv_run sampleWorld_opening rfl longWords_admitted
  have hbuilt := hall sampleConfig sampleWorld sampleWorld_opening rfl _ longWords_admitted
    _ _ _ _ _ _ _ e s' _ _ hclaim hvalid
  have hspoken := hinv.spoken_claim hclaim
  have hsendable := (completionRequest_isOk_iff hvalid hspoken).mp hbuilt
  -- the user's turn is in the history, and says the long words
  obtain ⟨item, hitem, hid, hblank⟩ := spoken_item hspoken
  have hlen := (hsendable item hitem hid).resolve_left (by simp [hblank])
  obtain ⟨r, -, -, -, -, hhistory⟩ := claimQueued_execution hclaim
  rw [hhistory] at hitem
  obtain ⟨mid, m, hm, hcontent⟩ := history_content hitem
  rw [← hcontent] at hblank hlen
  rw [firstWords_said hm hblank, longWords_len] at hlen
  omega

end Mosaic.Chat
