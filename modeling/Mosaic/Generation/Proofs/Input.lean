/-
Which accepted inputs can be executed.

The contract and the provider ports validate the same fields twice and
not alike. `Executable` is the exact difference: an admitted request
reaches its provider call if and only if it is executable. The proof
follows the payload: what a key of the dump reads back as, then one
lemma per modality.
-/
import Mosaic.Generation.Executor

namespace Mosaic.Generation

open Lib Providers

variable {ports : ProviderPorts} {q : CreateGenerationRequest} {i : GenerationInput}
  {model : String}

-- ================================================================= checks

theorem requireText_ok_iff {value name : String} {max : Nat} :
    requireText value name max = .ok ()
      ↔ PyStr.blank value = false ∧ PyStr.len value ≤ max := by
  unfold requireText
  rw [bind_eq_ok]
  simp

theorem requireSize_ok_iff {value : String} :
    requireSize value = .ok ()
      ↔ ∃ w h, sizeMatch value = some (w, h)
        ∧ (512 ≤ w ∧ w ≤ 2048) ∧ (512 ≤ h ∧ h ≤ 2048) := by
  unfold requireSize
  simp only [bind_eq_ok, orRaise_eq_ok, Prod.exists, raiseIf_eq_ok, not_or, not_lt,
    gt_iff_lt]
  constructor
  · rintro ⟨w, h, hm, hw, hh, hw', hh'⟩
    exact ⟨w, h, hm, ⟨hw, hw'⟩, ⟨hh, hh'⟩⟩
  · rintro ⟨w, h, hm, ⟨hw, hw'⟩, ⟨hh, hh'⟩⟩
    exact ⟨w, h, hm, hw, hh, hw', hh'⟩

/-- A port request is built exactly when its checks pass. -/
theorem ofPort_isOk_iff {α : Type} {x : Except String α} :
    (∃ y, ofPort x = .ok y) ↔ ∃ y, x = .ok y := by
  simp [ofPort]

theorem requiredString_ok_iff {s name : String} {x : String} :
    requiredString (.str s) name = .ok x ↔ PyStr.blank s = false ∧ x = s := by
  simp only [requiredString, Json.str?, bind_eq_ok, orRaise_eq_ok, Option.some.injEq,
    raiseIf_eq_ok, Bool.not_eq_true, pure_eq_ok]
  constructor
  · rintro ⟨a, rfl, u, hb, rfl⟩
    exact ⟨hb, rfl⟩
  · rintro ⟨hb, rfl⟩
    exact ⟨x, rfl, (), hb, rfl⟩

theorem boundedInt_of_bounds {n default minimum maximum : Int}
    (h : minimum ≤ n ∧ n ≤ maximum) :
    boundedInt (.int n) default minimum maximum = .ok n := by
  simp [boundedInt, Json.int?, orRaise, raiseIf, h, bind, Except.bind, pure, Except.pure]

-- ================================================================ payload

/-- What the keys of the stored input read back as. -/
structure ReadBack (i : GenerationInput) : Prop where
  messages : Json.field i.dump "messages"
    = (i.messages.map fun ms => Json.arr (ms.map GenerationMessage.dump)).getD .null
  prompt : Json.field i.dump "prompt" = (i.prompt.map Json.str).getD .null
  text : Json.field i.dump "text" = (i.text.map Json.str).getD .null
  languageType : Json.field i.dump "language_type"
    = (i.languageType.map Json.str).getD .null
  size : Json.field i.dump "size" = .str i.size
  count : Json.field i.dump "count" = .int i.count
  resolution : Json.field i.dump "resolution" = .str i.resolution.toString
  ratio : Json.field i.dump "ratio" = .str i.ratio.toString
  durationSeconds : Json.field i.dump "duration_seconds" = .int i.durationSeconds

theorem readBack (i : GenerationInput) : ReadBack i := by
  obtain ⟨messages, prompt, text, language, size, count, resolution, ratio, duration⟩ := i
  cases messages <;> cases prompt <;> cases text <;> cases language
  all_goals exact ⟨rfl, rfl, rfl, rfl, rfl, rfl, rfl, rfl, rfl⟩

/-- What the contract says of a request it admits. -/
structure Admitted (q : CreateGenerationRequest) : Prop where
  messages : ∀ ms, q.input.messages = some ms → ∀ m ∈ ms, PyStr.len m.content ≤ 8000
  prompt : ∀ s, q.input.prompt = some s → PyStr.len s ≤ 16000
  text : ∀ s, q.input.text = some s → PyStr.len s ≤ 8000
  languageType : ∀ s, q.input.languageType = some s → PyStr.len s ≤ 64
  size : ∃ w h, sizeMatch q.input.size = some (w, h)
  count : 1 ≤ q.input.count ∧ q.input.count ≤ 6
  durationSeconds : 2 ≤ q.input.durationSeconds ∧ q.input.durationSeconds ≤ 15
  modality : q.modalityInput = true

theorem admitted_spec (h : q.admitted = true) : Admitted q := by
  simp only [CreateGenerationRequest.admitted, GenerationInput.admitted, boundedLength,
    Bool.and_eq_true, Option.all_eq_true, List.all_eq_true, decide_eq_true_eq,
    Option.isSome_iff_exists, Prod.exists] at h
  obtain ⟨⟨⟨⟨-, ⟨⟨⟨⟨⟨⟨hmessages, hprompt⟩, htext⟩, hlanguage⟩, hsize⟩, hcount⟩, hduration⟩⟩,
    -⟩, -⟩, hmodality⟩ := h
  exact
    { messages := fun ms hms m hm => ((hmessages ms hms).2 m hm).2
      prompt := fun s hs => (hprompt s hs).2, text := fun s hs => (htext s hs).2
      languageType := fun s hs => (hlanguage s hs).2, size := hsize, count := hcount
      durationSeconds := hduration, modality := hmodality }

-- ============================================================= conditions

/-- The route the resolver found: the client of the modality is
configured, the model is named, and an audio route has a voice of its
model. -/
structure ResolvedRoute (ports : ProviderPorts) (q : CreateGenerationRequest) :
    Prop where
  configured : (match q.modality with
    | .text => ports.text
    | .image => ports.image
    | .video => ports.video
    | .audio => ports.audio) = true
  model : PyStr.blank (modelOf ports (jobOf q)) = false
    ∧ PyStr.len (modelOf ports (jobOf q)) ≤ 160
  voice : q.modality = .audio → ∃ v, ports.audioVoice = some v
    ∧ v.targetModel = modelOf ports (jobOf q) ∧ PyStr.blank v.providerVoiceId = false

/-- A string that is there and not blank. -/
def filled (s : Option String) : Prop := ∃ x, s = some x ∧ PyStr.blank x = false

/-- The inputs the ports accept, among those the contract does. -/
def Executable (ports : ProviderPorts) (q : CreateGenerationRequest) : Prop :=
  match q.modality with
  | .image => filled q.input.prompt ∧ ∃ w h, sizeMatch q.input.size = some (w, h)
      ∧ (512 ≤ w ∧ w ≤ 2048) ∧ (512 ≤ h ∧ h ≤ 2048)
  | .video => filled q.input.prompt
  | .audio => filled q.input.text
      ∧ ∀ v, ports.audioVoice = some v → PyStr.len v.providerVoiceId ≤ 160
  | .text =>
      match q.input.messages with
      | some (m :: ms) => ∀ x ∈ m :: ms, PyStr.blank x.content = false
      | _ => ∃ s, q.input.prompt = some s ∧ PyStr.blank s = false ∧ PyStr.len s ≤ 8000

-- ============================================================== modalities

/-- A required string is there exactly when it is filled. -/
theorem requiredString_isOk {s : Option String} {name x : String} :
    requiredString ((s.map Json.str).getD .null) name = .ok x
      ↔ s = some x ∧ PyStr.blank x = false := by
  cases s with
  | none => simp [requiredString, Json.str?, orRaise, bind, Except.bind]
  | some y =>
      rw [Option.map_some, Option.getD_some, requiredString_ok_iff]
      constructor
      · rintro ⟨hb, rfl⟩
        exact ⟨rfl, hb⟩
      · rintro ⟨hy, hb⟩
        obtain rfl := Option.some.inj hy
        exact ⟨hb, rfl⟩

theorem stringOrDefault_str {s default : String} (h : PyStr.blank s = false) :
    stringOrDefault (.str s) default = s := by
  simp [stringOrDefault, Json.str?, h]

/-- A size that matches has a star in it. -/
theorem size_filled {value : String} {w h : Nat} (hm : sizeMatch value = some (w, h)) :
    PyStr.blank value = false := by
  unfold sizeMatch at hm
  simp only at hm
  split at hm
  · next height hdrop =>
      have hstar : '*' ∈ value.toList := by
        apply (List.dropWhile_sublist isAsciiDigit).subset
        rw [hdrop]
        exact List.mem_cons_self
      rw [PyStr.blank, Bool.eq_false_iff]
      intro hall
      have := List.all_eq_true.mp hall '*' hstar
      revert this
      decide
  · cases hm

theorem imageCall_isOk (hports : ports.image = true)
    (hmodel : PyStr.blank model = false ∧ PyStr.len model ≤ 160) (h : Admitted q) :
    (∃ call, imageCall ports model q.input.dump = .ok call)
      ↔ filled q.input.prompt ∧ ∃ w h, sizeMatch q.input.size = some (w, h)
        ∧ (512 ≤ w ∧ w ≤ 2048) ∧ (512 ≤ h ∧ h ≤ 2048) := by
  obtain ⟨w₀, h₀, hmatch⟩ := h.size
  have hread := readBack q.input
  have hbuild : ∀ prompt, (∃ r, ofPort (ImageGenerationRequest.build model prompt
      q.input.size q.input.count) = .ok r)
      ↔ (PyStr.blank prompt = false ∧ PyStr.len prompt ≤ 16000)
        ∧ ∃ w h, sizeMatch q.input.size = some (w, h)
          ∧ (512 ≤ w ∧ w ≤ 2048) ∧ (512 ≤ h ∧ h ≤ 2048) := by
    intro prompt
    rw [ofPort_isOk_iff, ImageGenerationRequest.build, certify_isOk_iff,
      imageGenerationCheck]
    simp only [seq_eq_ok, requireModel, requireText_ok_iff,
      requireSize_ok_iff, raiseIf_eq_ok, not_not]
    exact ⟨fun hx => ⟨hx.2.1, hx.2.2.1⟩, fun hx => ⟨hmodel, hx.1, hx.2, h.count⟩⟩
  simp only [imageCall, bind_eq_ok, raiseIf_eq_ok, hports, hread.prompt, hread.size,
    hread.count, requiredString_isOk, boundedInt_of_bounds h.count,
    stringOrDefault_str (size_filled hmatch), pure_eq_ok]
  constructor
  · rintro ⟨call, -, -, prompt, ⟨hp, hb⟩, count, hcount, request, hreq, -⟩
    obtain rfl := Except.ok.inj hcount
    exact ⟨⟨prompt, hp, hb⟩, ((hbuild prompt).mp ⟨request, hreq⟩).2⟩
  · rintro ⟨⟨prompt, hp, hb⟩, hdims⟩
    obtain ⟨request, hreq⟩ := (hbuild prompt).mpr ⟨⟨hb, h.prompt prompt hp⟩, hdims⟩
    exact ⟨_, (), by simp, prompt, ⟨hp, hb⟩, _, rfl, request, hreq, rfl⟩

theorem resolution_filled (r : Resolution) : PyStr.blank r.toString = false := by
  cases r <;> decide +kernel

theorem ratio_filled (r : Ratio) : PyStr.blank r.toString = false := by
  cases r <;> decide +kernel

theorem videoCall_isOk (hports : ports.video = true)
    (hmodel : PyStr.blank model = false ∧ PyStr.len model ≤ 160) (h : Admitted q) :
    (∃ call, videoCall ports model q.input.dump true = .ok call)
      ↔ filled q.input.prompt := by
  have hread := readBack q.input
  have hresolution : q.input.resolution.toString ∈ ["720P", "1080P"] := by
    cases q.input.resolution <;> decide
  have hratio : q.input.ratio.toString ∈ ["1:1", "16:9", "9:16", "4:3", "3:4"] := by
    cases q.input.ratio <;> decide
  have hbuild : ∀ prompt, (∃ r, ofPort (VideoGenerationRequest.build model prompt
      q.input.resolution.toString q.input.ratio.toString q.input.durationSeconds) = .ok r)
      ↔ PyStr.blank prompt = false ∧ PyStr.len prompt ≤ 16000 := by
    intro prompt
    rw [ofPort_isOk_iff, VideoGenerationRequest.build, certify_isOk_iff,
      videoGenerationCheck]
    simp only [seq_eq_ok, requireModel, requireText_ok_iff,
      raiseIf_eq_ok, not_not]
    exact ⟨fun hx => hx.2.1,
      fun hx => ⟨hmodel, hx, hresolution, hratio, h.durationSeconds⟩⟩
  simp only [videoCall, bind_eq_ok, raiseIf_eq_ok, hports, hread.prompt,
    hread.resolution, hread.ratio, hread.durationSeconds, requiredString_isOk,
    boundedInt_of_bounds h.durationSeconds, stringOrDefault_str (resolution_filled _),
    stringOrDefault_str (ratio_filled _), pure_eq_ok]
  constructor
  · rintro ⟨call, -, -, -, -, prompt, ⟨hp, hb⟩, -⟩
    exact ⟨prompt, hp, hb⟩
  · rintro ⟨prompt, hp, hb⟩
    obtain ⟨request, hreq⟩ := (hbuild prompt).mpr ⟨hb, h.prompt prompt hp⟩
    exact ⟨_, (), by simp, (), by simp, prompt, ⟨hp, hb⟩, _, rfl, request, hreq, rfl⟩

/-- The language falls back to a name the port accepts. -/
theorem language_ok (h : Admitted q) :
    requireText (stringOrDefault ((q.input.languageType.map Json.str).getD .null)
      "Chinese") "audio language" 64 = .ok () := by
  rw [requireText_ok_iff]
  have hdefault : PyStr.blank "Chinese" = false ∧ PyStr.len "Chinese" ≤ 64 := by
    decide +kernel
  cases hl : q.input.languageType with
  | none => exact hdefault
  | some s =>
      by_cases hb : PyStr.blank s = true
      · simpa [stringOrDefault, Json.str?, hb] using hdefault
      · rw [Bool.not_eq_true] at hb
        rw [Option.map_some, Option.getD_some, stringOrDefault_str hb]
        exact ⟨hb, h.languageType s hl⟩

theorem audioCall_isOk {v : AudioVoiceBinding} (hports : ports.audio = true)
    (hmodel : PyStr.blank model = false ∧ PyStr.len model ≤ 160)
    (hvoice : ports.audioVoice = some v) (htarget : v.targetModel = model)
    (hblank : PyStr.blank v.providerVoiceId = false) (h : Admitted q) :
    (∃ call, audioCall ports model q.input.dump = .ok call)
      ↔ filled q.input.text ∧ PyStr.len v.providerVoiceId ≤ 160 := by
  have hread := readBack q.input
  have hbuild : ∀ text, (∃ r, ofPort (AudioGenerationRequest.build model text
      v.providerVoiceId (stringOrDefault ((q.input.languageType.map Json.str).getD .null)
        "Chinese")) = .ok r)
      ↔ (PyStr.blank text = false ∧ PyStr.len text ≤ 8000)
        ∧ PyStr.len v.providerVoiceId ≤ 160 := by
    intro text
    rw [ofPort_isOk_iff, AudioGenerationRequest.build, certify_isOk_iff,
      audioGenerationCheck]
    simp only [seq_eq_ok, requireModel, language_ok h, and_true]
    simp only [requireText_ok_iff]
    exact ⟨fun hx => ⟨hx.2.1, hx.2.2.2⟩, fun hx => ⟨hmodel, hx.1, hblank, hx.2⟩⟩
  have hfound : ports.audioVoice.filter (fun v => v.targetModel == model) = some v := by
    rw [hvoice, Option.filter_eq_some_iff]
    exact ⟨rfl, by simp [htarget]⟩
  simp only [audioCall, bind_eq_ok, raiseIf_eq_ok, hports, hfound, hread.text,
    hread.languageType, orRaise_eq_ok, requiredString_isOk, pure_eq_ok]
  constructor
  · rintro ⟨call, -, -, v', hv', text, ⟨ht, hb⟩, request, hreq, -⟩
    obtain rfl := Option.some.inj hv'
    exact ⟨⟨text, ht, hb⟩, ((hbuild text).mp ⟨request, hreq⟩).2⟩
  · rintro ⟨⟨text, ht, hb⟩, hlen⟩
    obtain ⟨request, hreq⟩ := (hbuild text).mpr ⟨⟨hb, h.text text ht⟩, hlen⟩
    exact ⟨_, (), by simp, v, rfl, text, ⟨ht, hb⟩, request, hreq, rfl⟩

/-- A message of a known role is built exactly when its text passes. -/
theorem chatMessage_isOk {role : ChatRole} {content : String} :
    (∃ x, ofPort (ChatMessage.build role.toString content) = .ok x)
      ↔ PyStr.blank content = false ∧ PyStr.len content ≤ 8000 := by
  have hrole : ChatRole.ofString role.toString = some role := by
    cases role <;> decide +kernel
  rw [ofPort_isOk_iff, ← requireText_ok_iff, ChatMessage.build, hrole]
  exact certify_isOk_iff

/-- A stored message is readable exactly when its content is not blank. -/
theorem messageOf_isOk {m : GenerationMessage} (hlen : PyStr.len m.content ≤ 8000) :
    (∃ x, messageOf m.dump = .ok x) ↔ PyStr.blank m.content = false := by
  have hdump : messageOf m.dump = (do
      let content ← requiredString (.str m.content) "message content"
      ofPort (ChatMessage.build m.role.toString content)) := rfl
  simp only [hdump, bind_eq_ok, requiredString_ok_iff]
  constructor
  · rintro ⟨x, content, ⟨hb, rfl⟩, -⟩
    exact hb
  · intro hb
    obtain ⟨x, hx⟩ := chatMessage_isOk.mpr ⟨hb, hlen⟩
    exact ⟨x, m.content, ⟨hb, rfl⟩, hx⟩

/-- A list of stored messages is readable when every one of them is. -/
theorem messagesOf_isOk {ms : List GenerationMessage}
    (hlen : ∀ m ∈ ms, PyStr.len m.content ≤ 8000) :
    (∃ xs, messagesOf (.arr (ms.map GenerationMessage.dump)) = .ok xs)
      ↔ ∀ m ∈ ms, PyStr.blank m.content = false := by
  induction ms with
  | nil => simp [messagesOf, pure, Except.pure]
  | cons m ms ih =>
      have hhead := messageOf_isOk (hlen m List.mem_cons_self)
      have htail := ih fun x hx => hlen x (List.mem_cons_of_mem _ hx)
      simp only [messagesOf, List.map_cons, List.mapM_cons, bind_eq_ok, pure_eq_ok] at *
      rw [List.forall_mem_cons, ← hhead, ← htail]
      constructor
      · rintro ⟨_, x, hx, xs, hxs, rfl⟩
        exact ⟨⟨x, hx⟩, xs, hxs⟩
      · rintro ⟨⟨x, hx⟩, xs, hxs⟩
        exact ⟨x :: xs, x, hx, xs, hxs, rfl⟩

/-- Reading a list never loses a message. -/
theorem messagesOf_length {items : List Json} {xs : List ChatMessage}
    (h : messagesOf (.arr items) = .ok xs) : xs.length = items.length := by
  induction items generalizing xs with
  | nil =>
      simp only [messagesOf, List.mapM_nil, pure_eq_ok] at h
      simp [← h]
  | cons item items ih =>
      simp only [messagesOf, List.mapM_cons, bind_eq_ok, pure_eq_ok] at h ih
      obtain ⟨x, -, ys, hys, rfl⟩ := h
      simp [ih hys]

/-- Without messages, the prompt is the one message. -/
theorem promptMessages_isOk {values : List (String × Json)} {s : Option String}
    (hgiven : messagesOf (Json.field values "messages") = .ok [])
    (hprompt : Json.field values "prompt" = (s.map Json.str).getD .null) :
    (∃ xs, textMessages values = .ok xs ∧ xs ≠ [])
      ↔ ∃ p, s = some p ∧ PyStr.blank p = false ∧ PyStr.len p ≤ 8000 := by
  simp only [textMessages, hgiven, bind_eq_ok, Except.ok.injEq, exists_eq_left', hprompt,
    requiredString_isOk, pure_eq_ok]
  constructor
  · rintro ⟨_, ⟨p, ⟨hs, -⟩, x, hx, rfl⟩, -⟩
    exact ⟨p, hs, (@chatMessage_isOk .user p).mp ⟨x, hx⟩⟩
  · rintro ⟨p, hs, hp⟩
    obtain ⟨x, hx⟩ := (@chatMessage_isOk .user p).mpr hp
    exact ⟨_, ⟨p, ⟨hs, hp.1⟩, x, hx, rfl⟩, by simp⟩

/-- With messages, they are the messages of the call. -/
theorem givenMessages_isOk {values : List (String × Json)} {m : GenerationMessage}
    {ms : List GenerationMessage} (hlen : ∀ x ∈ m :: ms, PyStr.len x.content ≤ 8000)
    (hgiven : Json.field values "messages"
      = .arr ((m :: ms).map GenerationMessage.dump)) :
    (∃ xs, textMessages values = .ok xs ∧ xs ≠ [])
      ↔ ∀ x ∈ m :: ms, PyStr.blank x.content = false := by
  rw [← messagesOf_isOk hlen]
  simp only [textMessages, hgiven, bind_eq_ok]
  constructor
  · rintro ⟨_, ⟨xs, hxs, -⟩, -⟩
    exact ⟨xs, hxs⟩
  · rintro ⟨xs, hxs⟩
    have hn := messagesOf_length hxs
    cases xs with
    | nil => simp at hn
    | cons x xs => exact ⟨x :: xs, ⟨x :: xs, hxs, rfl⟩, by simp⟩

theorem textMessages_isOk (h : Admitted q) :
    (∃ xs, textMessages q.input.dump = .ok xs ∧ xs ≠ [])
      ↔ (match q.input.messages with
        | some (m :: ms) => ∀ x ∈ m :: ms, PyStr.blank x.content = false
        | _ => ∃ s, q.input.prompt = some s ∧ PyStr.blank s = false
            ∧ PyStr.len s ≤ 8000) := by
  have hread := readBack q.input
  have hmessages := hread.messages
  cases hm : q.input.messages with
  | none =>
      rw [hm] at hmessages
      apply promptMessages_isOk (by rw [hmessages]; rfl) hread.prompt
  | some ms =>
      rw [hm] at hmessages
      cases ms with
      | nil => apply promptMessages_isOk (by rw [hmessages]; rfl) hread.prompt
      | cons m ms => apply givenMessages_isOk (h.messages _ hm) hmessages

theorem textCall_isOk (hports : ports.text = true)
    (hmodel : PyStr.blank model = false ∧ PyStr.len model ≤ 160) :
    (∃ call, textCall ports model q.input.dump = .ok call)
      ↔ ∃ xs, textMessages q.input.dump = .ok xs ∧ xs ≠ [] := by
  have hbuild : ∀ xs, (∃ r, ofPort (TextCompletionRequest.build model xs) = .ok r)
      ↔ xs ≠ [] := by
    intro xs
    rw [ofPort_isOk_iff, TextCompletionRequest.build, certify_isOk_iff,
      textCompletionCheck, seq_eq_ok, requireModel, requireText_ok_iff]
    simp [hmodel]
  simp only [textCall, bind_eq_ok, raiseIf_eq_ok, hports, pure_eq_ok]
  constructor
  · rintro ⟨_, -, -, xs, hxs, request, hreq, -⟩
    exact ⟨xs, hxs, (hbuild xs).mp ⟨request, hreq⟩⟩
  · rintro ⟨xs, hxs, hne⟩
    obtain ⟨request, hreq⟩ := (hbuild xs).mpr hne
    exact ⟨_, (), by simp, xs, hxs, request, hreq, rfl⟩

-- ================================================================= result

/-- The provider is reached exactly with an executable input. -/
theorem providerCall_isOk_iff (hadmitted : q.admitted = true)
    (hroute : ResolvedRoute ports q) :
    (∃ call, providerCall ports (jobOf q) = .ok call) ↔ Executable ports q := by
  have h := admitted_spec hadmitted
  have hmodel := hroute.model
  have hconfigured := hroute.configured
  have hinput : inputValues (jobOf q).requestPayload = .ok q.input.dump := rfl
  have hfirst : providerCall ports (jobOf q) = (match q.modality with
      | .image => imageCall ports (modelOf ports (jobOf q)) q.input.dump
      | .video => videoCall ports (modelOf ports (jobOf q)) q.input.dump true
      | .audio => audioCall ports (modelOf ports (jobOf q)) q.input.dump
      | .text => textCall ports (modelOf ports (jobOf q)) q.input.dump) := by
    have hmodality : (jobOf q).modality = q.modality := rfl
    have hrecorder : (jobOf q).submissionRecorder = true := rfl
    cases hcase : q.modality <;>
      simp [providerCall, hinput, hmodel.1, hmodality, hrecorder, hcase, raiseIf, bind,
        Except.bind]
  rw [hfirst, Executable]
  cases hmod : q.modality with
  | image =>
      rw [hmod] at hconfigured
      exact imageCall_isOk hconfigured hmodel h
  | video =>
      rw [hmod] at hconfigured
      exact videoCall_isOk hconfigured hmodel h
  | audio =>
      rw [hmod] at hconfigured
      obtain ⟨v, hv, htarget, hblank⟩ := hroute.voice hmod
      have hcall := audioCall_isOk hconfigured hmodel hv htarget hblank h
      simpa [hv] using hcall
  | text =>
      rw [hmod] at hconfigured
      exact (textCall_isOk hconfigured hmodel).trans (textMessages_isOk h)

/-- An admitted image request, at the given size. -/
def sampleImage (size : String) : CreateGenerationRequest :=
  { productModelId := "wan-image", modality := .image
    input := { prompt := some "a cat", size := size }, clientRequestId := "r1" }

def samplePorts : ProviderPorts :=
  { text := true, image := true, video := true, audio := true
    providerModelId := some "wan2.7-image", audioVoice := none }

theorem providerCall_isOk_iff_sample :
    ∃ call, providerCall samplePorts (jobOf (sampleImage "1024*768")) = .ok call := by
  have hroute : ResolvedRoute samplePorts (sampleImage "1024*768") :=
    ⟨rfl, by decide +kernel, fun h => by cases h⟩
  have hsize : sizeMatch "1024*768" = some (1024, 768) := by decide +kernel
  apply (providerCall_isOk_iff (by decide +kernel) hroute).mpr
  exact ⟨⟨"a cat", rfl, by decide +kernel⟩, 1024, 768, hsize, by decide, by decide⟩

/-- The contract admits a size the port refuses: the executor raises
after the job was submitted, and no provider call is made. -/
theorem small_image_refused :
    (sampleImage "256*256").admitted = true
      ∧ ResolvedRoute samplePorts (sampleImage "256*256")
      ∧ (∀ call, providerCall samplePorts (jobOf (sampleImage "256*256")) ≠ .ok call) := by
  have hroute : ResolvedRoute samplePorts (sampleImage "256*256") :=
    ⟨rfl, by decide +kernel, fun h => by cases h⟩
  have herror : (providerCall samplePorts (jobOf (sampleImage "256*256"))).isOk
      = false := by
    decide +kernel
  refine ⟨by decide +kernel, hroute, ?_⟩
  intro call hcall
  rw [hcall] at herror
  cases herror

end Mosaic.Generation
