/-
How a provider outcome reaches the exception branch.

The status of an HTTP answer gets into an error in one place
(`_ensure_success`), and a definitive task status in one other; every
other exception on the way carries neither, and `_submission_is_uncertain`
keeps the hold for it. Hence the branch takes the definitive path for
three reasons only: an error answer below 500 to the submit call
(`submit_definitive`), one to a poll, or a task that ended without a
video (`pollVideo_definitive`), which is FAILED, CANCELED or UNKNOWN.
-/
import Mosaic.Generation.World

namespace Mosaic.Generation

open Lib Providers

-- =========================================================== before call

/-- The branch keeps the hold. -/
def Uncertain (e : ExecuteError) : Prop := submissionIsUncertain e = true

theorem uncertain_value (m : String) : Uncertain (.value m) := rfl

theorem uncertain_type (m : String) : Uncertain (.type m) := rfl

theorem uncertain_infrastructure {code : String}
    (h : code ≠ "GENERATION_PROVIDER_TASK_FAILED") : Uncertain (.infrastructure code) := by
  simp [Uncertain, submissionIsUncertain, h]

theorem ofPort_uncertain {α : Type} (x : Except String α) :
    Raises Uncertain (ofPort x) := by
  intro e he
  obtain ⟨m, -, rfl⟩ := mapError_eq_error.mp he
  rfl

theorem requiredString_uncertain (value : Json) (name : String) :
    Raises Uncertain (requiredString value name) := by
  refine .bind (.orRaise (uncertain_value _)) fun s _ => ?_
  exact .bind (.raiseIf fun _ => uncertain_value _) fun _ _ => .pure _

theorem boundedInt_uncertain (value : Json) (default minimum maximum : Int) :
    Raises Uncertain (boundedInt value default minimum maximum) := by
  unfold boundedInt
  split
  · exact .pure _
  · refine .bind (.orRaise (uncertain_value _)) fun n _ => ?_
    exact .bind (.raiseIf fun _ => uncertain_value _) fun _ _ => .pure _

theorem messageOf_uncertain (item : Json) : Raises Uncertain (messageOf item) := by
  refine .bind (.orRaise (uncertain_type _)) fun fields _ => ?_
  exact .bind (requiredString_uncertain _ _) fun _ _ => ofPort_uncertain _

theorem textMessages_uncertain (values : List (String × Json)) :
    Raises Uncertain (textMessages values) := by
  refine .bind ?_ fun given _ => ?_
  · unfold messagesOf
    split
    · exact .mapM messageOf_uncertain _
    · exact .pure _
  · split
    · refine .bind (requiredString_uncertain _ _) fun prompt _ => ?_
      exact .bind (ofPort_uncertain _) fun _ _ => .pure _
    · exact .pure _

/-- Nothing the executor raises before its call is definitive. -/
theorem providerCall_uncertain (ports : ProviderPorts) (job : Job) :
    Raises Uncertain (providerCall ports job) := by
  refine .bind (.orRaise (uncertain_type _)) fun values _ => ?_
  refine .bind (.raiseIf fun _ => uncertain_infrastructure (by decide)) fun _ _ => ?_
  split
  · refine .bind (.raiseIf fun _ => uncertain_infrastructure (by decide)) fun _ _ => ?_
    refine .bind (requiredString_uncertain _ _) fun _ _ => ?_
    refine .bind (boundedInt_uncertain _ _ _ _) fun _ _ => ?_
    exact .bind (ofPort_uncertain _) fun _ _ => .pure _
  · refine .bind (.raiseIf fun _ => uncertain_infrastructure (by decide)) fun _ _ => ?_
    refine .bind (.raiseIf fun _ => uncertain_infrastructure (by decide)) fun _ _ => ?_
    refine .bind (requiredString_uncertain _ _) fun _ _ => ?_
    refine .bind (boundedInt_uncertain _ _ _ _) fun _ _ => ?_
    exact .bind (ofPort_uncertain _) fun _ _ => .pure _
  · refine .bind (.raiseIf fun _ => uncertain_infrastructure (by decide)) fun _ _ => ?_
    refine .bind (.orRaise (uncertain_infrastructure (by decide))) fun voice _ => ?_
    refine .bind (requiredString_uncertain _ _) fun _ _ => ?_
    exact .bind (ofPort_uncertain _) fun _ _ => .pure _
  · refine .bind (.raiseIf fun _ => uncertain_infrastructure (by decide)) fun _ _ => ?_
    refine .bind (textMessages_uncertain _) fun _ _ => ?_
    exact .bind (ofPort_uncertain _) fun _ _ => .pure _

-- ================================================================ answers

variable {β : Type}

/-- The answer of an exchange, if one came. -/
def answered : Exchange β → Option Answer
  | .answered answer _ => some answer
  | _ => none

/-- A failure that carries no HTTP status, or that of an error answer
among `o`. -/
def Statused (o : Option Answer) : CallFailure → Prop
  | .provider e => e.statusCode = none
      ∨ ∃ a, o = some a ∧ a.isSuccess = false ∧ e.statusCode = some a.status
  | .value => True

theorem statused_protocol {o : Option Answer} : Statused o (.provider protocolError) :=
  Or.inl rfl

theorem readAnswer_raises (chargeable : Bool) (answer : Answer) (body : Option β) :
    Raises (Statused (some answer)) (readAnswer chargeable answer body) := by
  refine .bind (.raiseIf fun hnot => Or.inr ⟨answer, rfl, hnot, rfl⟩) fun _ _ => ?_
  exact .bind (.orRaise statused_protocol) fun _ _ => .pure _

theorem post_raises (x : Exchange β) : Raises (Statused (answered x)) (post x) := by
  cases x with
  | connectError => exact .error (Or.inl rfl)
  | transportError => exact .error (Or.inl rfl)
  | answered answer body => exact readAnswer_raises true answer body

theorem get_raises (x : Exchange β) : Raises (Statused (answered x)) (get x) := by
  cases x with
  | connectError => exact .error (Or.inl rfl)
  | transportError => exact .error (Or.inl rfl)
  | answered answer body => exact readAnswer_raises false answer body

section

variable {o : Option Answer} (asset : String → Option String)

theorem countOrRaise_raises (n : Option Int) : Raises (Statused o) (countOrRaise n) := by
  cases n with
  | none => exact .pure _
  | some n => exact .bind (.raiseIf fun _ => trivial) fun _ _ => .pure _

theorem toVideoUsage_raises (u : VideoUsageWire) : Raises (Statused o) (toVideoUsage u) := by
  unfold toVideoUsage
  split
  · exact .pure _
  · refine .bind (.raiseIf fun _ => trivial) fun _ _ => ?_
    refine .bind (countOrRaise_raises _) fun _ _ => ?_
    exact .bind (countOrRaise_raises _) fun _ _ => .pure _

theorem imageArtifact_raises (c : ImageContent) :
    Raises (Statused o) (imageArtifact asset c) := by
  unfold imageArtifact
  split
  · exact .bind (.orRaise statused_protocol) fun _ _ => .pure _
  · exact .bind (.raiseIf fun _ => trivial) fun _ _ => .pure _
  · exact .pure _

/-- The failures of the four submit calls. -/
theorem generate_raises (x : Exchange ImageResponse) :
    Raises (Statused (answered x)) (generate asset x) := by
  refine .bind (post_raises x) fun y _ => ?_
  refine .bind (.mapM (imageArtifact_raises asset) _) fun _ _ => ?_
  refine .bind (.raiseIf fun _ => statused_protocol) fun _ _ => ?_
  refine .bind (.orRaise statused_protocol) fun _ _ => ?_
  exact .bind (countOrRaise_raises _) fun _ _ => .pure _

theorem synthesize_raises (x : Exchange AudioResponse) :
    Raises (Statused (answered x)) (synthesize asset x) := by
  refine .bind (post_raises x) fun y _ => ?_
  refine .bind (.orRaise statused_protocol) fun _ _ => ?_
  refine .bind (.orRaise statused_protocol) fun _ _ => ?_
  exact .bind (countOrRaise_raises _) fun _ _ => .pure _

theorem submitVideo_raises (x : Exchange String) :
    Raises (Statused (answered x)) (submitVideo x) := by
  refine .bind (post_raises x) fun y _ => ?_
  exact .bind (.raiseIf fun _ => statused_protocol) fun _ _ => .pure _

theorem completeText_raises (model : String) (x : Exchange TextResponse) :
    Raises (Statused (answered x)) (completeText model x) := by
  refine .bind (post_raises x) fun y _ => ?_
  refine .bind (.raiseIf fun _ => statused_protocol) fun _ _ => ?_
  refine .bind (.raiseIf fun _ => statused_protocol) fun _ _ => ?_
  refine .bind (.orRaise statused_protocol) fun _ _ => ?_
  refine .bind ?_ fun _ _ => .pure _
  unfold usageOrRaise
  split
  · exact .pure _
  · exact .bind (.orRaise trivial) fun _ _ => .pure _

/-- And of a poll. -/
theorem getVideoTask_raises (x : Exchange VideoTaskResponse) :
    Raises (Statused (answered x)) (getVideoTask asset x) := by
  refine .bind (get_raises x) fun y _ => ?_
  refine .bind ?_ fun status _ => ?_
  · exact .bind (.orRaise statused_protocol) fun _ _ => .pure _
  refine .bind ?_ fun video _ => ?_
  · unfold taskVideo
    split
    · exact .pure _
    · exact .bind (.orRaise statused_protocol) fun _ _ => .pure _
  refine .bind (.raiseIf fun _ => statused_protocol) fun _ _ => ?_
  refine .bind ?_ fun _ _ => .pure _
  refine .bind ?_ fun usage _ => ?_
  · cases y.2.usage with
    | none => exact .pure _
    | some u => exact toVideoUsage_raises u
  · split
    · exact .pure _
    · exact toVideoUsage_raises _

end

-- ============================================================ definitive

/-- An error answer below 500. -/
def Definitive (a : Answer) : Prop := a.isSuccess = false ∧ a.status < 500

theorem ofCall_uncertain {α : Type} {o : Option Answer} {x : Except CallFailure α}
    (h : Raises (Statused o) x) :
    Raises (fun e => Uncertain e ∨ ∃ a, o = some a ∧ Definitive a) (ofCall x) := by
  intro e he
  obtain ⟨f, hf, rfl⟩ := mapError_eq_error.mp he
  cases f with
  | value => exact Or.inl rfl
  | provider p =>
      rcases h _ hf with hnone | ⟨a, ha, hnot, hstatus⟩
      · left
        simp [Uncertain, submissionIsUncertain, hnone]
      · by_cases hle : 500 ≤ a.status
        · left
          simp [Uncertain, submissionIsUncertain, hstatus, hle]
        · exact Or.inr ⟨a, ha, hnot, by omega⟩

/-- The submit call raises a definitive error for an error answer below
500 only. -/
theorem submit_definitive (asset : String → Option String) (x : Answers)
    (call : ProviderCall) :
    Raises (fun e => Uncertain e ∨ ∃ a, answerOf x call = some a ∧ Definitive a)
      (submit asset x call) := by
  cases call with
  | generate request =>
      refine .bind ?_ fun _ _ => .pure _
      have hanswer : answerOf x (.generate request) = answered x.image := rfl
      rw [hanswer]
      exact ofCall_uncertain (generate_raises asset x.image)
  | submitVideo request =>
      refine .bind ?_ fun _ _ => .pure _
      have hanswer : answerOf x (.submitVideo request) = answered x.video := rfl
      rw [hanswer]
      exact ofCall_uncertain (submitVideo_raises x.video)
  | synthesize request =>
      refine .bind ?_ fun _ _ => .pure _
      have hanswer : answerOf x (.synthesize request) = answered x.audio := rfl
      rw [hanswer]
      exact ofCall_uncertain (synthesize_raises asset x.audio)
  | complete request =>
      refine .bind ?_ fun _ _ => .pure _
      have hanswer : answerOf x (.complete request) = answered x.text := rfl
      rw [hanswer]
      exact ofCall_uncertain (completeText_raises request.model x.text)

/-- A task that is over without a video. -/
def EndedWithout (st : VideoTaskStatus) : Prop :=
  st = .failed ∨ st = .canceled ∨ st = .unknown

/-- A succeeded task has its video. -/
theorem getVideoTask_video {asset : String → Option String}
    {x : Exchange VideoTaskResponse} {r : VideoTaskResult}
    (h : getVideoTask asset x = .ok r) : r.status = .succeeded → r.video ≠ none := by
  simp only [getVideoTask, bind_eq_ok, raiseIf_eq_ok, pure_eq_ok] at h
  obtain ⟨-, -, status, -, video, -, -, hboth, usage, -, rfl⟩ := h
  intro hstatus hnone
  exact hboth ⟨hstatus, hnone⟩

/-- The exception of a task that is over: it ended without a video. -/
theorem taskFailed_status {asset : String → Option String}
    {x : Exchange VideoTaskResponse} {r : VideoTaskResult}
    (hr : getVideoTask asset x = .ok r)
    (hrunning : ¬(r.status = .pending ∨ r.status = .running))
    (hover : r.status ≠ .succeeded ∨ r.video = none) : EndedWithout r.status := by
  have hvideo := getVideoTask_video hr
  unfold EndedWithout
  cases hstatus : r.status with
  | pending => exact absurd (Or.inl hstatus) hrunning
  | running => exact absurd (Or.inr hstatus) hrunning
  | succeeded =>
      rcases hover with h | h
      · exact absurd hstatus h
      · exact absurd h (hvideo hstatus)
  | failed => exact Or.inl rfl
  | canceled => exact Or.inr (Or.inl rfl)
  | unknown => exact Or.inr (Or.inr rfl)

/-- A poll raises a definitive error for an error answer below 500, or
for a task that ended without a video. -/
theorem pollVideo_definitive (asset : String → Option String) (taskId : String)
    (durationSeconds : Int) (expired : Bool) (x : Exchange VideoTaskResponse) :
    Raises (fun e => Uncertain e ∨ (∃ a, answered x = some a ∧ Definitive a)
        ∨ ∃ r, getVideoTask asset x = .ok r ∧ EndedWithout r.status)
      (pollVideo asset taskId durationSeconds expired x) := by
  refine .bind ?_ fun r hr => ?_
  · refine (ofCall_uncertain (getVideoTask_raises asset x)).mono fun e he => ?_
    rcases he with he | he
    · exact Or.inl he
    · exact Or.inr (Or.inl he)
  · have hr : getVideoTask asset x = .ok r := mapError_eq_ok.mp hr
    split
    · exact .bind (.raiseIf fun _ => Or.inl rfl) fun _ _ => .pure _
    · next hrunning =>
        refine .bind (.raiseIf fun hover => ?_) fun _ _ => .pure _
        exact Or.inr (Or.inr ⟨r, hr, taskFailed_status hr hrunning hover⟩)

/-- The recovery resolves a job as failed for such a task only. -/
theorem recoverVideo_taskFailed {asset : String → Option String} {configured : Bool}
    {rec : GenerationRecord} {x : Exchange VideoTaskResponse}
    {storage : Nat → Option StoredArtifact}
    (h : recoverVideo asset configured rec x storage = .error taskFailed) :
    ∃ r, getVideoTask asset x = .ok r ∧ EndedWithout r.status := by
  have hraises : Raises (fun e => e = taskFailed →
      ∃ r, getVideoTask asset x = .ok r ∧ EndedWithout r.status)
      (recoverVideo asset configured rec x storage) := by
    have hcode : ∀ {code : String} {P : Prop}, code ≠ "GENERATION_PROVIDER_TASK_FAILED" →
        ExecuteError.infrastructure code = taskFailed → P :=
      fun hne he => absurd (ExecuteError.infrastructure.inj he) hne
    refine .bind (.raiseIf fun _ => hcode (by decide)) fun _ _ => ?_
    refine .bind (.orRaise (hcode (by decide))) fun taskId _ => ?_
    refine .bind (.raiseIf fun _ => hcode (by decide)) fun _ _ => ?_
    refine .bind (.raiseIf fun _ he => by cases he) fun _ _ => ?_
    refine .bind ?_ fun task htask => ?_
    · intro e he heq
      obtain ⟨f, -, rfl⟩ := mapError_eq_error.mp he
      cases f <;> cases heq
    have hr : getVideoTask asset x = .ok task := mapError_eq_ok.mp htask
    split
    · exact .pure _
    · next hrunning =>
        refine .bind (.raiseIf fun hover _ => ?_) fun _ _ => ?_
        · exact ⟨task, hr, taskFailed_status hr hrunning hover⟩
        refine .bind (.orRaise fun he => by cases he) fun artifact _ => ?_
        refine .bind (.orRaise fun he => by cases he) fun values _ => ?_
        refine .bind ((boundedInt_uncertain _ _ _ _).mono fun e he heq => ?_) fun _ _ => ?_
        · subst heq
          simp [Uncertain, submissionIsUncertain, taskFailed] at he
        refine .bind ?_ fun _ _ => .pure _
        refine .bind ?_ fun _ _ => .pure _
        exact .bind (.raiseIf fun _ he => by cases he) fun _ _ => .pure _
  exact hraises _ h rfl

end Mosaic.Generation
