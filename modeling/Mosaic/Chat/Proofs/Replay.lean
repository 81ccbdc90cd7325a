/-
The event stream replays the log.

# Progress

A reader does not stand still. From a read on, each of its steps yields the
next event (`Reading.delivers`); from anywhere, three steps more than there
are events left bring them all, unless the deadline comes first
(`Reading.progresses`); and the step after the closing event ends the stream
(`Reading.ends`). Whatever else commits in between only adds events at the
end of the log.

# Replay

`Replayed` is what a caller may count on: no error, no gap, no repetition,
and progress. `stream_replay_iff` says that the two ways out of `Seamless`
are all that can go wrong with it.
-/
import Mosaic.Chat.Proofs.Reader

namespace Mosaic.Chat

open Lib

variable {cfg : Config} {x : Site} {id : Nat} {r : InferenceRequest} {initial : Billing.Db}
  {a : StreamAsk} {y : Audience}

-- ============================================================= progress

/-- How many of the steps are the reader's. -/
def readerSteps : List AudienceAct → Nat
  | [] => 0
  | .site _ :: acts => readerSteps acts
  | .read _ :: acts => readerSteps acts + 1

/-- The events of the log the reader has yet to yield. -/
def Audience.unread (y : Audience) (id : Nat) : List StreamEvent :=
  (y.site.world.store.log id).drop (y.reader.start + y.reader.yielded.length)

theorem Reading.start_le (h : Reading y id r) :
    y.reader.start ≤ y.reader.expected.toNat := by
  have := h.expected
  omega

/-- The cursor stands past what was yielded. -/
theorem Reading.position (h : Reading y id r) :
    y.reader.expected.toNat = y.reader.start + y.reader.yielded.length := by
  have := h.expected
  omega

theorem Reading.unread_eq (h : Reading y id r) :
    y.unread id = (y.site.world.store.log id).drop y.reader.expected.toNat := by
  rw [h.position]
  rfl

theorem Reading.yielded_eq (h : Reading y id r) : y.reader.yielded
    = ((y.site.world.store.log id).take y.reader.expected.toNat).drop y.reader.start := by
  have hlen : ((y.site.world.store.log id).take y.reader.start).length = y.reader.start := by
    rw [List.length_take]
    have := h.start_le.trans h.within
    omega
  rw [← h.place, List.drop_append_of_le_length hlen.ge]
  simp [List.drop_eq_nil_of_le hlen.le]

/-- What was yielded and what was not is the log from the cursor on. -/
theorem Reading.yielded_unread (h : Reading y id r) : y.reader.yielded ++ y.unread id
    = (y.site.world.store.log id).drop y.reader.start := by
  have hle : y.reader.start ≤ ((y.site.world.store.log id).take
      y.reader.expected.toNat).length := by
    rw [List.length_take]
    have := h.start_le
    have := h.within
    omega
  rw [h.yielded_eq, h.unread_eq, ← List.drop_append_of_le_length hle, List.take_append_drop]

/-- The log keeps what the reader has yet to yield. -/
theorem Reading.unread_site (h : Reading y id r) (hinv : SiteInv cfg initial y.site)
    (act : SiteAct) : y.unread id <+: (audienceStep cfg y (.site act)).unread id := by
  exact drop_mono_left (hinv.logged (.now h.request) act).1 _

/-- An undisturbed run keeps the reader's place. -/
theorem Reading.keeps (h : Reading y id r) (hinv : SiteInv cfg initial y.site)
    (hnames : NamesInv y.site.world.store) {more : List AudienceAct}
    (hall : RunAll (audienceStep cfg) Seamless y more) :
    ∃ r', Reading (run (audienceStep cfg) y more) id r'
      ∧ y.site.world.store.log id
        <+: (run (audienceStep cfg) y more).site.world.store.log id := by
  induction more generalizing y r with
  | nil => exact ⟨r, h, List.prefix_rfl⟩
  | cons act more ih =>
      cases act with
      | site act =>
          obtain ⟨r', h'⟩ := h.site hinv act
          obtain ⟨r'', h'', hpre⟩ := ih h' (hinv.step act) (hinv.names hnames act) hall.2
          exact ⟨r'', h'', (hinv.logged (.now h.request) act).1.trans hpre⟩
      | read env => exact ih (h.read hinv hnames env hall.1) hinv hnames hall.2

/-- The events in hand come one a step. -/
theorem Reading.hands_over (h : Reading y id r) (hinv : SiteInv cfg initial y.site)
    (hnames : NamesInv y.site.world.store) {rows : List StreamEvent} {empty : Bool}
    (hpc : y.reader.pc = .yielding rows empty) {more : List AudienceAct}
    (hall : RunAll (audienceStep cfg) Seamless y more) (hn : readerSteps more ≤ rows.length) :
    (run (audienceStep cfg) y more).reader.yielded
      = y.reader.yielded ++ rows.take (readerSteps more) := by
  induction more generalizing y r rows with
  | nil => simp [readerSteps]
  | cons act more ih =>
      cases act with
      | site act =>
          obtain ⟨r', h'⟩ := h.site hinv act
          exact ih h' (hinv.step act) (hinv.names hnames act) hpc hall.2 hn
      | read env =>
          cases rows with
          | nil => exact absurd hn (by simp [readerSteps])
          | cons row rows =>
              have hstep := h.step_yield hinv hnames env hpc hall.1
              have hnext : (audienceStep cfg y (.read env)).reader = _ := hstep
              have hpc' : (audienceStep cfg y (.read env)).reader.pc = .yielding rows empty := by
                rw [hnext]
              have hrest := ih (h.read hinv hnames env hall.1) hinv hnames hpc' hall.2
                (by simpa [readerSteps] using hn)
              rw [run_cons, hrest, hnext]
              simp [readerSteps]

/-- **From a read on** each step of the reader yields the next event. -/
theorem Reading.delivers (h : Reading y id r) (hinv : SiteInv cfg initial y.site)
    (hnames : NamesInv y.site.world.store) (hpc : y.reader.pc = .read)
    {rows : List StreamEvent} (hrows : rows <+: y.unread id) {more : List AudienceAct}
    (hall : RunAll (audienceStep cfg) Seamless y more)
    (hn : readerSteps more ≤ rows.length + 1) :
    (run (audienceStep cfg) y more).reader.yielded
      = y.reader.yielded ++ rows.take (readerSteps more - 1) := by
  induction more generalizing y r with
  | nil => simp [readerSteps]
  | cons act more ih =>
      cases act with
      | site act =>
          obtain ⟨r', h'⟩ := h.site hinv act
          exact ih h' (hinv.step act) (hinv.names hnames act) hpc
            (hrows.trans (h.unread_site hinv act)) hall.2 hn
      | read env =>
          have hnext : (audienceStep cfg y (.read env)).reader = _ := h.step_read hinv env hpc
          have hn : readerSteps more ≤ rows.length := by simpa [readerSteps] using hn
          rw [h.unread_eq] at hrows
          have hrest := (h.read hinv hnames env hall.1).hands_over hinv hnames
            (by rw [hnext]) hall.2 (hn.trans hrows.length_le)
          rw [run_cons, hrest, hnext, take_mono_left hrows hn]
          simp [readerSteps]

/-- The steps a reader needs beyond one for each of the `left` events: after
the events in hand come the end of the turn, the check and the read. -/
def ReaderPc.lag (pc : ReaderPc) (left : Nat) : Nat :=
  match pc with
  | .read => 1
  | .yielding rows _ => if left ≤ rows.length then 0 else 3
  | .check _ => 2
  | _ => 0

theorem ReaderPc.lag_le (pc : ReaderPc) (left : Nat) : pc.lag left ≤ 3 := by
  unfold ReaderPc.lag
  split
  · omega
  · split <;> omega
  · omega
  · omega

/-- The steps the reader needs to get to place `n` of the log. -/
def Audience.owed (y : Audience) (n : Nat) : Nat :=
  n - y.reader.expected.toNat + y.reader.pc.lag (n - y.reader.expected.toNat)

/-- A stream that is over stays as it is. -/
theorem over_run (cfg : Config) (h : y.reader.pc = .returned ∨ y.reader.pc = .expired)
    (more : List AudienceAct) : (run (audienceStep cfg) y more).reader = y.reader := by
  induction more generalizing y with
  | nil => rfl
  | cons act more ih =>
      have hstep : (audienceStep cfg y act).reader = y.reader := by
        cases act with
        | site act => rfl
        | read env =>
            show readerStep env y.reader y.site.world.store = y.reader
            unfold readerStep
            rcases h with hpc | hpc
            · simp only [hpc]
            · simp only [hpc]
      rw [run_cons, ih (hstep ▸ h), hstep]

/-- A step leaves the question as it is and the cursor no less far. -/
theorem readerStep_forward (env : ReaderEnv) (p : Reader) (s : Store) :
    (readerStep env p s).ask = p.ask ∧ p.expected ≤ (readerStep env p s).expected := by
  unfold readerStep
  split
  · split <;> exact ⟨rfl, le_rfl⟩
  · exact ⟨rfl, le_rfl⟩
  · split
    · exact ⟨rfl, le_rfl⟩
    · refine ⟨rfl, ?_⟩
      show p.expected ≤ p.expected + 1
      omega
  · split
    · exact ⟨rfl, le_rfl⟩
    · split
      · exact ⟨rfl, le_rfl⟩
      · split
        · exact ⟨rfl, le_rfl⟩
        · rcases p.pause_cases env with ⟨-, heq⟩ | ⟨-, beat, subscribed, heq⟩
          · rw [heq]
            exact ⟨rfl, le_rfl⟩
          · rw [heq]
            exact ⟨rfl, le_rfl⟩
  · exact ⟨rfl, le_rfl⟩
  · exact ⟨rfl, le_rfl⟩
  · exact ⟨rfl, le_rfl⟩

theorem forward_run (cfg : Config) (y : Audience) (more : List AudienceAct) :
    (run (audienceStep cfg) y more).reader.ask = y.reader.ask
      ∧ y.reader.expected ≤ (run (audienceStep cfg) y more).reader.expected := by
  induction more generalizing y with
  | nil => exact ⟨rfl, le_rfl⟩
  | cons act more ih =>
      have hrest := ih (audienceStep cfg y act)
      cases act with
      | site act => exact hrest
      | read env =>
          have hstep := readerStep_forward env y.reader y.site.world.store
          exact ⟨hrest.1.trans hstep.1, hstep.2.trans hrest.2⟩

/-- Each step of the reader is one of those it needs. -/
theorem Reading.nearer (h : Reading y id r) (hinv : SiteInv cfg initial y.site)
    (hnames : NamesInv y.site.world.store) {n : Nat}
    (hlog : n ≤ (y.site.world.store.log id).length) (hleft : y.reader.expected.toNat < n)
    (env : ReaderEnv) (hgood : Seamless y (.read env)) :
    (audienceStep cfg y (.read env)).reader.pc = .expired
      ∨ n ≤ (audienceStep cfg y (.read env)).reader.expected.toNat
      ∨ (audienceStep cfg y (.read env)).owed n + 1 ≤ y.owed n := by
  have hfits := h.pc
  unfold Audience.owed
  cases hpc : y.reader.pc with
  | read =>
      have hnext : (audienceStep cfg y (.read env)).reader = _ := h.step_read hinv env hpc
      have hall : n - y.reader.expected.toNat
          ≤ ((y.site.world.store.log id).drop y.reader.expected.toNat).length := by
        rw [List.length_drop]
        omega
      right; right
      rw [hnext]
      simp only [ReaderPc.lag, if_pos hall]
      omega
  | yielding rows empty =>
      cases rows with
      | nil =>
          by_cases hclosed : y.reader.terminal = true
          · -- the closing event has been yielded, so nothing is left
            have hkept : Reading (audienceStep cfg y (.read env)) id r :=
              h.read hinv hnames env hgood
            have h' := hkept.pc
            have hnext : (audienceStep cfg y (.read env)).reader
                = { y.reader with pc := .returned } := by
              show readerStep env y.reader _ = _
              unfold readerStep
              simp only [hpc, if_pos hclosed]
            rw [hnext] at h' ⊢
            exact Or.inr (Or.inl (hlog.trans h'.2.ge))
          · have hnext : (audienceStep cfg y (.read env)).reader
                = { y.reader with pc := .check empty } := by
              show readerStep env y.reader _ = _
              unfold readerStep
              simp only [hpc, if_neg hclosed]
            right; right
            rw [hnext]
            have hnone : ¬ n - y.reader.expected.toNat ≤ ([] : List StreamEvent).length := by
              simp only [List.length_nil]
              omega
            simp only [ReaderPc.lag, if_neg hnone]
            omega
      | cons row rows =>
          have hnext : (audienceStep cfg y (.read env)).reader = _ :=
            h.step_yield hinv hnames env hpc hgood
          have hcursor : (y.reader.expected + 1).toNat = y.reader.expected.toNat + 1 := by
            have := h.expected_nat
            omega
          right; right
          rw [hnext]
          simp only [ReaderPc.lag, hcursor, List.length_cons]
          split <;> split <;> omega
  | check empty =>
      have hnext : (audienceStep cfg y (.read env)).reader = _ :=
        h.step_check hinv env hpc hgood
      rcases y.reader.pause_cases env with ⟨-, heq⟩ | ⟨-, beat, subscribed, heq⟩
      · left
        rw [hnext, heq]
      · right; right
        rw [hnext, heq]
        simp only [ReaderPc.lag]
        omega
  | returned =>
      rw [hpc] at hfits
      have := hfits.2
      omega
  | expired =>
      have hnext := over_run cfg (Or.inr hpc) [.read env]
      exact Or.inl ((congrArg Reader.pc hnext).trans hpc)
  | raised e =>
      rw [hpc] at hfits
      exact hfits.elim

/-- Given enough steps the cursor gets to any place the log has, if the
deadline does not come first. -/
theorem Reading.reaches (h : Reading y id r) (hinv : SiteInv cfg initial y.site)
    (hnames : NamesInv y.site.world.store) {n : Nat}
    (hlog : n ≤ (y.site.world.store.log id).length) {more : List AudienceAct}
    (hall : RunAll (audienceStep cfg) Seamless y more) (hn : y.owed n ≤ readerSteps more) :
    (run (audienceStep cfg) y more).reader.pc = .expired
      ∨ n ≤ (run (audienceStep cfg) y more).reader.expected.toNat := by
  induction more generalizing y r with
  | nil =>
      right
      simp only [Audience.owed, readerSteps, run_nil] at hn ⊢
      omega
  | cons act more ih =>
      by_cases hdone : n ≤ y.reader.expected.toNat
      · have := (forward_run cfg y (act :: more)).2
        omega
      cases act with
      | site act =>
          obtain ⟨r', h'⟩ := h.site hinv act
          exact ih h' (hinv.step act) (hinv.names hnames act)
            (hlog.trans (hinv.logged (.now h.request) act).1.length_le) hall.2 hn
      | read env =>
          have h' := h.read hinv hnames env hall.1
          rw [run_cons]
          rcases h.nearer hinv hnames hlog (by omega) env hall.1 with hexp | hthere | hnearer
          · exact Or.inl ((congrArg Reader.pc (over_run cfg (Or.inr hexp) more)).trans hexp)
          · have := (forward_run cfg (audienceStep cfg y (.read env)) more).2
            omega
          · simp only [readerSteps] at hn
            exact ih h' hinv hnames hlog hall.2 (by omega)

/-- **From anywhere** the reader has yielded all that was left after three
steps more than there were events, or its deadline has cut it short. -/
theorem Reading.progresses (h : Reading y id r) (hinv : SiteInv cfg initial y.site)
    (hnames : NamesInv y.site.world.store) {more : List AudienceAct}
    (hall : RunAll (audienceStep cfg) Seamless y more)
    (hn : (y.unread id).length + 3 ≤ readerSteps more) :
    (run (audienceStep cfg) y more).reader.pc = .expired
      ∨ y.reader.yielded ++ y.unread id
        <+: (run (audienceStep cfg) y more).reader.yielded := by
  obtain ⟨r', h', hpre⟩ := h.keeps hinv hnames hall
  have howed : y.owed (y.site.world.store.log id).length ≤ readerSteps more := by
    have hlag := y.reader.pc.lag_le
      ((y.site.world.store.log id).length - y.reader.expected.toNat)
    rw [h.unread_eq, List.length_drop] at hn
    unfold Audience.owed
    omega
  refine (h.reaches hinv hnames le_rfl hall howed).imp_right fun hthere => ?_
  have hstart : (run (audienceStep cfg) y more).reader.start = y.reader.start := by
    rw [Reader.start, (forward_run cfg y more).1]
    rfl
  rw [h.yielded_unread, h'.yielded_eq, hstart]
  refine drop_mono_left ?_ _
  exact List.prefix_take_iff.mpr ⟨hpre, hthere⟩

/-- Once the closing event is yielded, the reader is at the end of its turn. -/
theorem Reading.closed (h : Reading y id r) (hwf : LogWellFormed r (y.site.world.store.log id))
    {e : StreamEvent} (he : e ∈ y.reader.yielded) (hclose : e.body.terminal = true) :
    y.reader.pc = .returned
      ∨ ∃ empty, y.reader.pc = .yielding [] empty ∧ y.reader.terminal = true := by
  have hfits := h.pc
  have htaken : e ∈ (y.site.world.store.log id).take y.reader.expected.toNat := by
    rw [← h.place]
    exact List.mem_append_right _ he
  have hterm : y.reader.pc ≠ .returned → y.reader.terminal = true := fun hpc => by
    rw [h.terminal hpc]
    exact List.any_eq_true.mpr ⟨e, htaken, hclose⟩
  cases hpc : y.reader.pc with
  | returned => exact Or.inl rfl
  | yielding rows empty =>
      -- the log ends with this event, so nothing is in hand
      rw [hpc] at hfits hterm
      obtain ⟨i, hi⟩ := List.getElem?_of_mem htaken
      rw [List.getElem?_take] at hi
      split at hi
      · next hlt =>
          have hlast := hwf.closing_last i e hi hclose
          have hnil : (y.site.world.store.log id).drop y.reader.expected.toNat = [] :=
            List.drop_eq_nil_of_le (by omega)
          have hfits : rows <+: [] := hnil ▸ hfits
          obtain rfl := List.prefix_nil.mp hfits
          exact Or.inr ⟨empty, rfl, hterm (by simp)⟩
      · cases hi
  | read =>
      rw [hpc] at hfits hterm
      exact absurd (hterm (by simp)) (by rw [show y.reader.terminal = false from hfits]; simp)
  | check empty =>
      rw [hpc] at hfits hterm
      exact absurd (hterm (by simp)) (by rw [show y.reader.terminal = false from hfits]; simp)
  | expired =>
      rw [hpc] at hfits hterm
      exact absurd (hterm (by simp)) (by rw [show y.reader.terminal = false from hfits]; simp)
  | raised e =>
      rw [hpc] at hfits
      exact hfits.elim

/-- **From there** its next step ends the stream, and it yields nothing more. -/
theorem closed_run (cfg : Config) (h : y.reader.pc = .returned
      ∨ ∃ empty, y.reader.pc = .yielding [] empty ∧ y.reader.terminal = true)
    (more : List AudienceAct) :
    (run (audienceStep cfg) y more).reader.yielded = y.reader.yielded
      ∧ (0 < readerSteps more →
        (run (audienceStep cfg) y more).reader.pc = .returned) := by
  induction more generalizing y with
  | nil => exact ⟨rfl, fun h => absurd h (lt_irrefl 0)⟩
  | cons act more ih =>
      cases act with
      | site act => exact ih (y := audienceStep cfg y (.site act)) h
      | read env =>
          have hnext : (audienceStep cfg y (.read env)).reader
              = { y.reader with pc := .returned } := by
            show readerStep env y.reader _ = _
            unfold readerStep
            rcases h with hpc | ⟨empty, hpc, hclosed⟩
            · simp only [hpc]
              rw [← hpc]
            · simp only [hpc, if_pos hclosed]
          have hpc : (audienceStep cfg y (.read env)).reader.pc = .returned := by rw [hnext]
          rw [run_cons, over_run cfg (Or.inl hpc) more, hnext]
          exact ⟨rfl, fun _ => rfl⟩

/-- A step cuts the stream short at its check, once the deadline has come. -/
theorem Reading.expires_iff (h : Reading y id r) (hinv : SiteInv cfg initial y.site)
    (hnames : NamesInv y.site.world.store) (env : ReaderEnv) (hgood : Seamless y (.read env)) :
    (audienceStep cfg y (.read env)).reader.pc = .expired
      ↔ y.reader.pc = .expired
        ∨ (∃ empty, y.reader.pc = .check empty) ∧ y.reader.Due env := by
  have hfits := h.pc
  cases hpc : y.reader.pc with
  | read =>
      have hnext : (audienceStep cfg y (.read env)).reader = _ := h.step_read hinv env hpc
      rw [hnext]
      simp
  | yielding rows empty =>
      cases rows with
      | nil =>
          have hnext : (audienceStep cfg y (.read env)).reader
              = { y.reader with
                  pc := if y.reader.terminal then .returned else .check empty } := by
            show readerStep env y.reader _ = _
            unfold readerStep
            simp only [hpc]
          rw [hnext]
          by_cases hclosed : y.reader.terminal = true
          · simp [hclosed]
          · simp [hclosed]
      | cons row rows =>
          have hnext : (audienceStep cfg y (.read env)).reader = _ :=
            h.step_yield hinv hnames env hpc hgood
          rw [hnext]
          simp
  | check empty =>
      have hnext : (audienceStep cfg y (.read env)).reader = _ :=
        h.step_check hinv env hpc hgood
      rcases y.reader.pause_cases env with ⟨hdue, heq⟩ | ⟨hdue, beat, subscribed, heq⟩
      · rw [hnext, heq]
        simp [hdue]
      · rw [hnext, heq]
        simp [hdue]
  | returned =>
      have hnext := over_run cfg (Or.inl hpc) [.read env]
      rw [show (audienceStep cfg y (.read env)).reader = y.reader from hnext, hpc]
      simp
  | expired =>
      have hnext := over_run cfg (Or.inr hpc) [.read env]
      rw [show (audienceStep cfg y (.read env)).reader = y.reader from hnext, hpc]
      simp
  | raised e =>
      rw [hpc] at hfits
      exact hfits.elim

-- =============================================================== replay

/-- What a caller may count on, in any state of its stream. -/
structure Replayed (cfg : Config) (id : Nat) (y : Audience) : Prop where
  /-- The stream has not failed. -/
  quiet : ∀ e, y.reader.pc ≠ .raised e
  /-- What an earlier stream from `k` delivered up to the cursor, followed by
  what this one delivered, is what one stream from `k` delivers. -/
  resumes : ∀ k ≤ y.reader.start,
    ((y.site.world.store.log id).take y.reader.start).drop k ++ y.reader.yielded
      <+: (y.site.world.store.log id).drop k
  /-- From a read on, each step of the reader after it yields the next event
  of those left, whatever commits between its steps. -/
  delivers : y.reader.pc = .read → ∀ more, RunAll (audienceStep cfg) Seamless y more →
    readerSteps more ≤ (y.unread id).length + 1 →
    (run (audienceStep cfg) y more).reader.yielded
      = y.reader.yielded ++ (y.unread id).take (readerSteps more - 1)
  /-- From anywhere, three steps more than there are events left bring them
  all, unless the deadline cuts the stream short. -/
  progresses : ∀ more, RunAll (audienceStep cfg) Seamless y more →
    (y.unread id).length + 3 ≤ readerSteps more →
    (run (audienceStep cfg) y more).reader.pc = .expired
      ∨ y.reader.yielded ++ y.unread id <+: (run (audienceStep cfg) y more).reader.yielded
  /-- After the closing event nothing more is yielded, and the next step of the
  reader ends the stream. -/
  ends : ∀ e ∈ y.reader.yielded, e.body.terminal = true → ∀ more,
    (run (audienceStep cfg) y more).reader.yielded = y.reader.yielded
      ∧ (0 < readerSteps more → (run (audienceStep cfg) y more).reader.pc = .returned)
  /-- A stream that has ended has delivered everything, the closing event last. -/
  complete : y.reader.pc = .returned →
    y.reader.yielded = (y.site.world.store.log id).drop y.reader.start
      ∧ ∃ e, (y.site.world.store.log id).getLast? = some e ∧ e.body.terminal = true
  /-- It is cut short at its check, when its deadline has come, and by nothing
  else. -/
  expires : ∀ env, Seamless y (.read env) →
    ((audienceStep cfg y (.read env)).reader.pc = .expired
      ↔ y.reader.pc = .expired ∨ (∃ empty, y.reader.pc = .check empty) ∧ y.reader.Due env)

theorem Reading.replayed (h : Reading y id r) (hinv : SiteInv cfg initial y.site)
    (hnames : NamesInv y.site.world.store) : Replayed cfg id y := by
  have hwf := hinv.fleet.chat.log.wellFormed id r h.request
  refine
    { quiet := ?_
      resumes := ?_
      delivers := fun hpc more hall hn =>
        h.delivers hinv hnames hpc List.prefix_rfl hall hn
      progresses := fun more hall hn => h.progresses hinv hnames hall hn
      ends := fun e he hclose more => closed_run cfg (h.closed hwf he hclose) more
      complete := ?_
      expires := fun env hgood => h.expires_iff hinv hnames env hgood }
  · intro e hpc
    have hfits := h.pc
    rw [hpc] at hfits
    exact hfits
  · intro k hk
    have hlen : k ≤ ((y.site.world.store.log id).take y.reader.start).length := by
      rw [List.length_take]
      have := h.start_le.trans h.within
      omega
    rw [← List.drop_append_of_le_length hlen, h.place]
    exact drop_mono_left (List.take_prefix _ _) k
  · intro hpc
    have hfits := h.pc
    rw [hpc] at hfits
    obtain ⟨hfinal, hlen⟩ := hfits
    refine ⟨by rw [h.yielded_eq, hlen, List.take_length], ?_⟩
    obtain ⟨e, he, hclose⟩ := hwf.closed_iff.mpr hfinal
    obtain ⟨i, hi⟩ := List.getElem?_of_mem he
    have hlast := hwf.closing_last i e hi hclose
    refine ⟨e, ?_, hclose⟩
    rw [List.getLast?_eq_getElem?, ← hlast, Nat.add_sub_cancel]
    exact hi

/-- A reader that has kept its place keeps it for as long as nothing
disturbs it, and raises as soon as something does. -/
theorem Reading.run_iff (h : Reading y id r) (hinv : SiteInv cfg initial y.site)
    (hnames : NamesInv y.site.world.store) (more : List AudienceAct) :
    Replayed cfg id (run (audienceStep cfg) y more)
      ↔ RunAll (audienceStep cfg) Seamless y more := by
  induction more generalizing y r with
  | nil => exact ⟨fun _ => trivial, fun _ => h.replayed hinv hnames⟩
  | cons act more ih =>
      rw [run_cons, RunAll]
      cases act with
      | site act =>
          obtain ⟨r', h'⟩ := h.site hinv act
          have hrest := ih h' (hinv.step act) (hinv.names hnames act)
          exact ⟨fun hrep => ⟨trivial, hrest.mp hrep⟩, fun hall => hrest.mpr hall.2⟩
      | read env =>
          by_cases hgood : Seamless y (.read env)
          · have hrest := ih (h.read hinv hnames env hgood) hinv hnames
            exact ⟨fun hrep => ⟨hgood, hrest.mp hrep⟩, fun hall => hrest.mpr hall.2⟩
          · obtain ⟨e, he⟩ := h.disturbed hinv hnames env hgood
            refine ⟨fun hrep => ?_, fun hrest => absurd hrest.1 hgood⟩
            exact absurd (raised_run cfg more he) (hrep.quiet e)

theorem names_run (h : SiteOpening x) (acts : List SiteAct) :
    NamesInv (run (siteStep cfg) x acts).world.store := by
  have hnone : NamesInv x.world.store := by
    intro id r hr
    rw [h.world.store.get_requests] at hr
    cases hr
  have hstep : ∀ (z : Site) (act : SiteAct),
      SiteInv cfg x.world.store.billing z ∧ NamesInv z.world.store →
      SiteInv cfg x.world.store.billing (siteStep cfg z act)
        ∧ NamesInv (siteStep cfg z act).world.store :=
    fun z act hz => ⟨hz.1.step act, hz.1.names hz.2 act⟩
  exact (run_invariant hstep ⟨h.inv, hnone⟩ acts).2

/-- In every reachable site, a stream the owner of a request opens within its
log delivers the log gaplessly, goes on to its end or to its deadline, and
does not fail, whatever commits between its reads and however its waits end,
exactly as long as no end of the request lands between an empty read and the
check that follows it, and every event it comes to passes the public
contract. -/
theorem stream_replay_iff (h : SiteOpening x) (acts : List SiteAct)
    (hr : (run (siteStep cfg) x acts).world.store.requests.get id = some r)
    (hask : a.Asks r) (hlow : -1 ≤ a.normalizedCursor)
    (hhigh : a.normalizedCursor ≤ r.lastEventSequence)
    (hbeat : a.includeHeartbeats = true → 0 < a.heartbeatInterval)
    (service : StreamService) (now beat : Int) (subscribes : Bool) :
    ∃ p, openStream service now beat subscribes a
          (run (siteStep cfg) x acts).world.store = .ok p
      ∧ p.ask = a
      ∧ ∀ more, Replayed cfg id
            (run (audienceStep cfg) ⟨run (siteStep cfg) x acts, p⟩ more)
          ↔ RunAll (audienceStep cfg) Seamless ⟨run (siteStep cfg) x acts, p⟩ more := by
  have hinv := siteInv_run cfg h acts
  obtain ⟨p, hopen, hpa, hreading⟩ :=
    hinv.openStream_ok hr hask hlow hhigh hbeat service now beat subscribes
  exact ⟨p, hopen, hpa, fun more => hreading.run_iff hinv (names_run h acts) more⟩

-- =============================================================== sample

/-- A service without a deadline and without notifications. -/
def sampleService : StreamService :=
  { maxDuration := none, replayFallback := 15, notifier := false, fallbackPos := by decide }

/-- The owner of the sample request resumes after its first event. -/
def sampleAsk : StreamAsk :=
  { tenantId := 1, actorUserId := 2, conversationId := 0, requestId := 0
    cursor := some 0, includeHeartbeats := false, heartbeatInterval := 15 }

/-- The stream this opens. -/
def sampleAudience : Audience :=
  { site := run (siteStep sampleConfig) sampleSite sampleAccepted
    reader :=
      { service := sampleService, ask := sampleAsk
        request := { requestDbId := 0, requestId := 0, conversationId := 0, messageId := 1
                     tenantId := 1, status := .queued, lastEventSequence := 0 }
        expected := 1, terminal := false, started := true, deadline := none
        lastHeartbeat := 0, subscribed := false, yielded := [], pc := .read } }

def sampleRead : AudienceAct :=
  .read { deadlineNow := 0, heartbeatNow := 0, heartbeatReset := 0, afterNow := 0
          afterReset := 0, wake := .timedOut }

def sampleStop : AudienceAct := .site (.party (.api (.stop 5 1 2 0 0) rfl) rfl)

theorem sampleAudience_open :
    openStream sampleService 0 0 true sampleAsk sampleAudience.site.world.store
      = .ok sampleAudience.reader := by rfl

/-- A stop that comes after the check reaches the reader with its next
read: the last event is yielded and the stream is over. -/
theorem stream_replay_sample :
    let y := run (audienceStep sampleConfig) sampleAudience
      [sampleRead, sampleRead, sampleRead, sampleStop, sampleRead, sampleRead, sampleRead]
    Replayed sampleConfig 0 y
      ∧ y.reader.yielded.map (fun e => (e.sequenceNo, e.body)) = [(1, .stopped)]
      ∧ y.reader.pc = .returned := by
  have hrow : (sampleAudience.site.world.store.requests.get 0).map (fun r =>
      (r.tenantId, r.actorUserId, r.conversationId, r.requestId, r.lastEventSequence))
      = some (1, some 2, 0, 0, 0) := by decide +kernel
  obtain ⟨r, hr, hfields⟩ := Option.map_eq_some_iff.mp hrow
  obtain ⟨htenant, hactor, hconv, hrequest, hlast⟩ :
      r.tenantId = 1 ∧ r.actorUserId = some 2 ∧ r.conversationId = 0 ∧ r.requestId = 0
        ∧ r.lastEventSequence = 0 := by simpa using hfields
  have hasks : sampleAsk.Asks r := ⟨htenant, hactor, hconv, hrequest⟩
  obtain ⟨p, hopen, -, hiff⟩ := stream_replay_iff sampleSite_opening sampleAccepted hr
    hasks (by decide) (by rw [hlast]; decide) (by decide) sampleService 0 0 true
  obtain rfl : sampleAudience.reader = p :=
    Except.ok.inj (sampleAudience_open.symm.trans hopen)
  refine ⟨(hiff _).mpr ?_, by decide +kernel, by decide +kernel⟩
  exact ⟨trivial, trivial, rfl, trivial, trivial, rfl, trivial, trivial⟩

/-- The same stop between the empty read and the check fails the stream of a
well-formed log. -/
theorem stream_raises_sample :
    openStream sampleService 0 0 true sampleAsk sampleAudience.site.world.store
        = .ok sampleAudience.reader
      ∧ (run (audienceStep sampleConfig) sampleAudience
          [sampleRead, sampleRead, sampleStop, sampleRead]).reader.pc
        = .raised (.infrastructure "STREAM_EVENT_SEQUENCE_INVALID") :=
  ⟨sampleAudience_open, by decide +kernel⟩

end Mosaic.Chat
