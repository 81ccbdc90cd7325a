/-
The status of a video task: which spellings the client understands.

# Spellings

`Spells` is what the words of the two tables stand for, up to ASCII case
and ASCII whitespace around them. `strip().upper()` agrees with it on such
a string (`normalise_of_ascii`); it also maps some others to a member
name, because Python's whitespace and case are those of Unicode.

# The aliases

The default of `aliases.get` is evaluated before the lookup, so a word
that is an alias only (`SUCCESS`, `CANCELLED`) raises. `Understood` is the
condition that leaves these words, and the Unicode spellings, out.
-/
import Mosaic.Generation.Execution

namespace Mosaic.Generation

open Lib Providers

-- ============================================================== spellings

/-- The words for a status: the member's name and its aliases. -/
def spellings : VideoTaskStatus → List String
  | .pending => ["PENDING"]
  | .running => ["RUNNING"]
  | .succeeded => ["SUCCEEDED", "SUCCESS"]
  | .failed => ["FAILED"]
  | .canceled => ["CANCELED", "CANCELLED"]
  | .unknown => ["UNKNOWN"]

/-- Blank, tab, line feed, vertical tab, form feed and carriage return. -/
def asciiSpace (c : Char) : Bool :=
  c.toNat == 0x20 || (0x09 ≤ c.toNat && c.toNat ≤ 0x0D)

/-- A string without the ASCII whitespace around it, in ASCII upper
case. -/
def asciiNormal (s : String) : String :=
  String.ofList (((s.toList.dropWhile asciiSpace).rdropWhile asciiSpace).map Char.toUpper)

def Spells (s : String) (st : VideoTaskStatus) : Prop := asciiNormal s ∈ spellings st

instance (s : String) (st : VideoTaskStatus) : Decidable (Spells s st) :=
  inferInstanceAs (Decidable (asciiNormal s ∈ spellings st))

/-- The string is no alias that is not a member, and a member name only
Unicode makes of it does not count. -/
def Understood (s : String) : Prop :=
  asciiNormal s ≠ "SUCCESS" ∧ asciiNormal s ≠ "CANCELLED"
    ∧ ((VideoTaskStatus.ofString (PyStr.upper (PyStr.strip s))).isSome = true →
      (VideoTaskStatus.ofString (asciiNormal s)).isSome = true)

-- ========================================================== normalisation

/-- Trimming with a stronger test gives the same where it finds nothing
more to trim. -/
theorem trim_eq_of_le {p q : Char → Bool} (hle : ∀ c, p c = true → q c = true)
    {l t : List Char} (ht : (l.dropWhile p).rdropWhile p = t)
    (hq : ∀ c ∈ t, q c = false) (hne : t ≠ []) :
    (l.dropWhile q).rdropWhile q = t := by
  have hfront : l.takeWhile p ++ (t ++ (l.dropWhile p).rtakeWhile p) = l := by
    rw [← ht, List.rdropWhile_append_rtakeWhile, List.takeWhile_append_dropWhile]
  have hbefore : ∀ c ∈ l.takeWhile p, q c = true :=
    fun c hc => hle c (List.mem_takeWhile_imp hc)
  have hafter : ∀ c ∈ ((l.dropWhile p).rtakeWhile p).reverse, q c = true := by
    intro c hc
    rw [List.rtakeWhile, List.reverse_reverse] at hc
    exact hle c (List.mem_takeWhile_imp hc)
  have hstart : ∀ rest, (t ++ rest).dropWhile q = t ++ rest := by
    intro rest
    cases t with
    | nil => exact absurd rfl hne
    | cons c t => simp [hq c List.mem_cons_self]
  have hend : t.reverse.dropWhile q = t.reverse := by
    rw [List.dropWhile_eq_self_iff]
    intro hlen
    simpa using hq _ (List.mem_reverse.mp (List.getElem_mem hlen))
  rw [← hfront, List.dropWhile_append_of_pos hbefore, hstart, List.rdropWhile,
    List.reverse_append, List.dropWhile_append_of_pos hafter, hend, List.reverse_reverse]

/-- An upper-case letter is the upper case of an ASCII letter. -/
theorem letter_of_toUpper {c : Char} (h : c.toUpper.isUpper = true) :
    PyStr.isSpace c = false ∧ PyStr.upperChar c = [c.toUpper] := by
  have hall : ∀ n < 128, (Char.ofNat n).toUpper.isUpper = true →
      PyStr.isSpace (Char.ofNat n) = false
        ∧ PyStr.upperChar (Char.ofNat n) = [(Char.ofNat n).toUpper] := by
    decide
  have hsmall : c.toNat < 128 := by
    by_contra hge
    have hnot : ¬('a'.val ≤ c.val ∧ c.val ≤ 'z'.val) := by
      rintro ⟨-, hz⟩
      have hz : c.toNat ≤ 122 := hz
      omega
    rw [Char.toUpper, dif_neg hnot] at h
    simp only [Char.isUpper, ge_iff_le, decide_eq_true_eq] at h
    have hZ : c.toNat ≤ 90 := h.2
    omega
  have hchar : Char.ofNat c.toNat = c := Char.ofNat_toNat c
  have hc := hall c.toNat hsmall
  rw [hchar] at hc
  exact hc h

/-- On a word spelled in ASCII letters, `strip().upper()` is the ASCII
normal form. -/
theorem normalise_of_ascii {s : String} (hne : asciiNormal s ≠ "")
    (h : ∀ c ∈ (asciiNormal s).toList, c.isUpper = true) :
    PyStr.upper (PyStr.strip s) = asciiNormal s := by
  obtain ⟨t, ht⟩ : ∃ t, (s.toList.dropWhile asciiSpace).rdropWhile asciiSpace = t := ⟨_, rfl⟩
  rw [asciiNormal, ht] at hne h ⊢
  have hletter : ∀ c ∈ t, PyStr.isSpace c = false ∧ PyStr.upperChar c = [c.toUpper] := by
    intro c hc
    refine letter_of_toUpper (h c.toUpper ?_)
    rw [String.toList_ofList]
    exact List.mem_map_of_mem hc
  have htne : t ≠ [] := by
    rintro rfl
    exact hne rfl
  have hspace : ∀ c, asciiSpace c = true → PyStr.isSpace c = true := by
    intro c hc
    simp only [asciiSpace, Bool.or_eq_true, beq_iff_eq, Bool.and_eq_true,
      decide_eq_true_eq] at hc
    simp only [PyStr.isSpace, Bool.or_eq_true, beq_iff_eq, Bool.and_eq_true,
      decide_eq_true_eq]
    omega
  have hstrip : PyStr.strip s = String.ofList t := by
    rw [PyStr.strip, trim_eq_of_le hspace ht (fun c hc => (hletter c hc).1) htne]
  have hupper : t.flatMap PyStr.upperChar = t.map Char.toUpper := by
    clear ht htne hstrip hne h
    induction t with
    | nil => rfl
    | cons c t ih =>
        rw [List.flatMap_cons, (hletter c List.mem_cons_self).2,
          ih fun c' hc' => hletter c' (List.mem_cons_of_mem _ hc')]
        rfl
  rw [hstrip, PyStr.upper, String.toList_ofList, hupper]

/-- The eight words are spelled in letters. -/
theorem normalise_of_spells {s : String} {st : VideoTaskStatus} (h : Spells s st) :
    PyStr.upper (PyStr.strip s) = asciiNormal s := by
  have hwords : ∀ st, ∀ word ∈ spellings st,
      word ≠ "" ∧ word.toList.all Char.isUpper = true := by
    intro st
    cases st <;> decide
  obtain ⟨hne, hupper⟩ := hwords st _ h
  exact normalise_of_ascii hne (List.all_eq_true.mp hupper)

-- ================================================================ status

/-- The name of a member is one of its words. -/
theorem ofString_spells {word : String} {st : VideoTaskStatus}
    (h : VideoTaskStatus.ofString word = some st) : word ∈ spellings st := by
  unfold VideoTaskStatus.ofString at h
  split_ifs at h <;> cases h <;> simp_all [spellings]

/-- Of the words, two are no member. -/
theorem ofString_of_spelling {word : String} {st : VideoTaskStatus}
    (h : word ∈ spellings st) (hsuccess : word ≠ "SUCCESS")
    (hcancelled : word ≠ "CANCELLED") : VideoTaskStatus.ofString word = some st := by
  cases st with
  | succeeded =>
      obtain rfl | rfl : word = "SUCCEEDED" ∨ word = "SUCCESS" := by simpa [spellings] using h
      · rfl
      · exact absurd rfl hsuccess
  | canceled =>
      obtain rfl | rfl : word = "CANCELED" ∨ word = "CANCELLED" := by
        simpa [spellings] using h
      · rfl
      · exact absurd rfl hcancelled
  | pending => rw [List.mem_singleton.mp h]; rfl
  | running => rw [List.mem_singleton.mp h]; rfl
  | failed => rw [List.mem_singleton.mp h]; rfl
  | unknown => rw [List.mem_singleton.mp h]; rfl

/-- The aliases agree with the members. -/
theorem alias_getD {word : String} {st : VideoTaskStatus}
    (h : VideoTaskStatus.ofString word = some st) :
    (VideoTaskStatus.alias word).getD st = st := by
  unfold VideoTaskStatus.ofString at h
  split_ifs at h <;> cases h <;> simp_all [VideoTaskStatus.alias]

/-- A member's name is that member. -/
theorem normaliseVideoStatus_ok {s : String} {st : VideoTaskStatus}
    (h : VideoTaskStatus.ofString (PyStr.upper (PyStr.strip s)) = some st) :
    normaliseVideoStatus s = .ok st := by
  unfold normaliseVideoStatus
  dsimp only
  rw [h]
  exact congrArg Except.ok (alias_getD h)

/-- Any other string raises, and so does an alias. -/
theorem normaliseVideoStatus_error {s : String}
    (h : VideoTaskStatus.ofString (PyStr.upper (PyStr.strip s)) = none) :
    normaliseVideoStatus s = .error (.provider protocolError) := by
  unfold normaliseVideoStatus
  dsimp only
  rw [h]
  rfl

-- =============================================================== results

section

variable (asset : String → Option String)

/-- What the callers make of a task that is over: the wait ends with the
video or the failure, and so does the recovery. -/
structure Concluded (x : Exchange VideoTaskResponse) (r : VideoTaskResult) : Prop where
  wait : ∀ taskId duration expired, pollVideo asset taskId duration expired x
    = if r.status = .succeeded then .ok (some (.video taskId duration r))
      else .error taskFailed
  recoverFails : r.status ≠ .succeeded → ∀ (record : GenerationRecord) taskId storage,
    record.job.modality = .video → record.job.providerTaskId = some taskId →
    isTaskId taskId = true → recoverVideo asset true record x storage = .error taskFailed
  recoverDelivers : r.status = .succeeded → ∀ (record : GenerationRecord) taskId storage
    artifact values requested result,
    record.job.modality = .video → record.job.providerTaskId = some taskId →
    isTaskId taskId = true → storage 0 = some artifact →
    inputValues record.job.requestPayload = .ok values →
    boundedInt (Json.field values "duration_seconds") 2 2 15 = .ok requested →
    (Delivery.video taskId requested r).result [artifact] = .ok result →
    recoverVideo asset true record x storage = .ok (some result)

/-- The task's status is reported as `st`, and a finished task settles. -/
def Reported (x : Exchange VideoTaskResponse) (st : VideoTaskStatus) : Prop :=
  ∃ r, getVideoTask asset x = .ok r ∧ r.status = st
    ∧ (st ≠ .pending → st ≠ .running → Concluded asset x r)

theorem concluded {x : Exchange VideoTaskResponse} {r : VideoTaskResult}
    (h : getVideoTask asset x = .ok r) (hpending : r.status ≠ .pending)
    (hrunning : r.status ≠ .running) (hvideo : r.status = .succeeded → r.video ≠ none) :
    Concluded asset x r where
  wait := by
    intro taskId duration expired
    rw [pollVideo, h]
    by_cases hst : r.status = .succeeded
    · have hv := hvideo hst
      simp [ofCall, Except.mapError, bind, Except.bind, raiseIf, pure, Except.pure, hst, hv]
    · simp [ofCall, Except.mapError, bind, Except.bind, raiseIf, hst, hpending, hrunning]
  recoverFails := by
    intro hst record taskId storage hmodality htask hid
    simp [recoverVideo, h, ofCall, Except.mapError, bind, Except.bind, raiseIf, orRaise,
      hmodality, htask, hid, hst, hpending, hrunning]
  recoverDelivers := by
    intro hst record taskId storage artifact values requested result hmodality htask hid
      hstorage hvalues hrequested hresult
    have hv := hvideo hst
    simp [recoverVideo, h, ofCall, Except.mapError, bind, Except.bind, raiseIf, orRaise,
      hmodality, htask, hid, hst, hv, hstorage, hvalues, hrequested, hresult, pure,
      Except.pure]

/-- `get_video_task` on a response that is valid but for its status. -/
theorem getVideoTask_valid {answer : Answer} {parsed : VideoTaskResponse}
    {video : Option String} {usage : Option VideoUsage} {st : VideoTaskStatus}
    (hanswer : answer.isSuccess = true) (hvideo : taskVideo asset parsed.videoUrl = .ok video)
    (husage : taskUsage parsed = .ok usage)
    (hst : normaliseVideoStatus parsed.taskStatus = .ok st)
    (hneeds : st = .succeeded → video ≠ none) :
    ∃ r, getVideoTask asset (.answered answer (some parsed)) = .ok r
      ∧ r.status = st ∧ r.video = video := by
  refine ⟨{ status := st, video
            requestId := requestIdOf answer.headers parsed.requestId, usage }, ?_, rfl, rfl⟩
  have hguard : ¬(st = .succeeded ∧ video = none) := fun h => hneeds h.1 h.2
  simp [getVideoTask, Providers.get, readAnswer, bind, Except.bind, raiseIf, orRaise, pure,
    Except.pure, hanswer, hvideo, husage, hst, hguard]

theorem getVideoTask_status_error {answer : Answer} {parsed : VideoTaskResponse}
    {e : CallFailure} (hanswer : answer.isSuccess = true)
    (hst : normaliseVideoStatus parsed.taskStatus = .error e) :
    getVideoTask asset (.answered answer (some parsed)) = .error e := by
  simp [getVideoTask, Providers.get, readAnswer, bind, Except.bind, raiseIf, orRaise, pure,
    Except.pure, hanswer, hst]

/-- On every otherwise valid response, the status is reported as its
spelling says, and any other string is a protocol error, if and only if
the string is understood. -/
theorem video_status_normalised (answer : Answer) (parsed : VideoTaskResponse)
    (video : Option String) (usage : Option VideoUsage)
    (hanswer : answer.isSuccess = true) (hvideo : taskVideo asset parsed.videoUrl = .ok video)
    (husage : taskUsage parsed = .ok usage)
    (hneeds : Spells parsed.taskStatus .succeeded
      ∨ normaliseVideoStatus parsed.taskStatus = .ok .succeeded → video ≠ none) :
    ((∀ st, Spells parsed.taskStatus st → Reported asset (.answered answer (some parsed)) st)
      ∧ ((∀ st, ¬ Spells parsed.taskStatus st) →
        getVideoTask asset (.answered answer (some parsed))
          = .error (.provider protocolError)))
    ↔ Understood parsed.taskStatus := by
  constructor
  · rintro ⟨hspelled, hother⟩
    -- an alias that is no member raises
    have halias : ∀ {st}, Spells parsed.taskStatus st →
        VideoTaskStatus.ofString (asciiNormal parsed.taskStatus) ≠ none := by
      intro st hst hnone
      rw [← normalise_of_spells hst] at hnone
      obtain ⟨r, hr, -⟩ := hspelled st hst
      rw [getVideoTask_status_error asset hanswer (normaliseVideoStatus_error hnone)] at hr
      cases hr
    have hsuccess : asciiNormal parsed.taskStatus ≠ "SUCCESS" := by
      intro h
      have hst : Spells parsed.taskStatus .succeeded := by
        rw [Spells, h]
        decide
      exact halias hst (by rw [h]; rfl)
    have hcancelled : asciiNormal parsed.taskStatus ≠ "CANCELLED" := by
      intro h
      have hst : Spells parsed.taskStatus .canceled := by
        rw [Spells, h]
        decide
      exact halias hst (by rw [h]; rfl)
    refine ⟨hsuccess, hcancelled, fun hof => ?_⟩
    by_contra hnot
    obtain ⟨st, hof⟩ := Option.isSome_iff_exists.mp hof
    have hnormal := normaliseVideoStatus_ok hof
    have hnone : ∀ st', ¬ Spells parsed.taskStatus st' := by
      intro st' hst'
      exact hnot (by rw [ofString_of_spelling hst' hsuccess hcancelled]; rfl)
    have hvideo' : st = .succeeded → video ≠ none :=
      fun h => hneeds (.inr (h ▸ hnormal))
    obtain ⟨r, hr, -⟩ := getVideoTask_valid asset hanswer hvideo husage hnormal hvideo'
    rw [hother hnone] at hr
    cases hr
  · rintro ⟨hsuccess, hcancelled, hunicode⟩
    constructor
    · intro st hst
      have hof := ofString_of_spelling hst hsuccess hcancelled
      rw [← normalise_of_spells hst] at hof
      have hnormal := normaliseVideoStatus_ok hof
      have hvideo' : st = .succeeded → video ≠ none :=
        fun h => hneeds (.inl (h ▸ hst))
      obtain ⟨r, hr, rfl, hrv⟩ := getVideoTask_valid asset hanswer hvideo husage hnormal hvideo'
      exact ⟨r, hr, rfl, fun hp hrun => concluded asset hr hp hrun fun h => hrv ▸ hvideo' h⟩
    · intro hnone
      refine getVideoTask_status_error asset hanswer (normaliseVideoStatus_error ?_)
      cases hof : VideoTaskStatus.ofString (PyStr.upper (PyStr.strip parsed.taskStatus)) with
      | none => rfl
      | some st =>
          obtain ⟨st', hst'⟩ := Option.isSome_iff_exists.mp (hunicode (by rw [hof]; rfl))
          exact absurd (ofString_spells hst') (hnone st')

end

/-- An answer of the provider about a task. -/
def sampleStatus (status : String) : VideoTaskResponse :=
  { taskStatus := status, videoUrl := some "https://dashscope.example/v.mp4"
    requestId := none, usage := none
    output := { duration := none, videoCount := none, described := false } }

def sampleAnswer : Answer := { status := 200, headers := {} }

/-- A failed task, in lower case and with blanks around it. -/
theorem video_status_normalised_sample :
    Reported some (.answered sampleAnswer (some (sampleStatus " failed\n"))) .failed := by
  have h := video_status_normalised some sampleAnswer (sampleStatus " failed\n")
    (some "https://dashscope.example/v.mp4") none rfl rfl rfl (fun _ => by simp)
  exact (h.mpr ⟨by decide, by decide, by decide⟩).1 .failed (by decide)

/-- `SUCCESS` is an alias, and raises. -/
theorem success_alias_raises :
    Spells (sampleStatus "SUCCESS").taskStatus .succeeded
      ∧ getVideoTask some (.answered sampleAnswer (some (sampleStatus "SUCCESS")))
        = .error (.provider protocolError) := by
  refine ⟨by decide, ?_⟩
  rfl

end Mosaic.Generation
