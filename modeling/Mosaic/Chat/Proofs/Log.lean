/-
The event log of every request, in every reachable store: well formed
at any time, and frozen from the moment the request is over.
-/
import Mosaic.Chat.Proofs.Steps

namespace Mosaic.Chat

open Lib

variable {who : Caller} {s s' : Store} {id : Nat}
  {book : Catalog.PriceBook}

/-- Request `id` is over with this status and this log. -/
def Over (id : Nat) (status : RequestStatus) (log : List StreamEvent) (s : Store) :
    Prop :=
  status.final = true ∧ s.log id = log
    ∧ ∃ r, s.requests.get id = some r ∧ r.status = status

/-- An effect on a request that was active is not on one that is over. -/
theorem Over.ne {status : RequestStatus} {log : List StreamEvent}
    (h : Over id status log s) {j : Nat} {r : InferenceRequest}
    (hr : s.requests.get j = some r) (hact : r.status.active = true) : id ≠ j := by
  rintro rfl
  obtain ⟨hfinal, -, y, hy, rfl⟩ := h
  obtain rfl := Option.some.inj (hr.symm.trans hy)
  simp [RequestStatus.not_final_of_active hact] at hfinal

/-- No effect reopens a request. -/
theorem Over.effect {status : RequestStatus} {log : List StreamEvent}
    (h : Over id status log s) (heff : Effect who s s') : Over id status log s' := by
  have hover := h
  obtain ⟨hfinal, hlog, r, hr, hst⟩ := h
  cases heff with
  | quiet hq => exact ⟨hfinal, (log_congr hq.events).trans hlog, r, hq.requests ▸ hr, hst⟩
  | opened c ho =>
      exact ⟨hfinal, (log_congr ho.events).trans hlog, r, ho.requests ▸ hr, hst⟩
  | accepted cid mid c c' y m e o ha =>
      have hlt := Table.lt_nextId hr
      refine ⟨hfinal, ?_, r, ?_, hst⟩
      · rw [log_insert_other ha.events (by rw [ha.eventRequest]; omega), hlog]
      · rw [ha.requests]
        exact Table.get_insert_of_some hr _
  | moved j y y' hm hmove =>
      have hne := hover.ne hm.requests.old hm.wasActive
      refine ⟨hfinal, (log_congr hm.events).trans hlog, r, ?_, hst⟩
      rw [hm.requests.other hne, hr]
  | delta j y y' m m' e text hd =>
      have hne := hover.ne hd.requests.old (by rw [hd.running.1]; rfl)
      refine ⟨hfinal, ?_, r, by rw [hd.requests.other hne, hr], hst⟩
      rw [log_insert_other hd.events (by rw [hd.eventRequest]; exact hne.symm), hlog]
  | ended j y y' c c' m m' e he =>
      have hne := hover.ne he.requests.old he.wasActive
      refine ⟨hfinal, ?_, r, by rw [he.requests.other hne, hr], hst⟩
      rw [log_insert_other he.events (by rw [he.eventRequest]; exact hne.symm), hlog]

/-- A request that is over stays as it is for the rest of the run. -/
theorem Over.run {status : RequestStatus} {log : List StreamEvent}
    (hinv : ChatInv s) (h : Over id status log s) (ops : List Op) :
    Over id status log (run (step book) s ops) := by
  have hstep : ∀ t op, ChatInv t ∧ Over id status log t →
      ChatInv (step book t op) ∧ Over id status log (step book t op) :=
    fun t op ht => (step_effects book ht.1 op).carry ht.1 (fun _ heff ho => ho.effect heff) ht.2
  exact (run_invariant hstep ⟨hinv, h⟩ ops).2

/-- In every store an interleaving of submits, regenerates, stops, worker
operations and sweeps reaches, the log of every request is well formed,
and a request that is over keeps its status and its log through every
further step. -/
theorem log_wellFormed_run {s : Store} (h : Opening s) (ops : List Op) (id : Nat)
    (r : InferenceRequest)
    (hr : (run (step book) s ops).requests.get id = some r) :
    LogWellFormed r ((run (step book) s ops).log id)
      ∧ (r.status.final = true → ∀ more,
          Over id r.status ((run (step book) s ops).log id)
            (run (step book) s (ops ++ more))) := by
  have hinv : ChatInv (run (step book) s ops) := chatInv_run h ops
  refine ⟨hinv.log.wellFormed id r hr, fun hfinal more => ?_⟩
  rw [run_append]
  exact Over.run hinv ⟨hfinal, rfl, r, hr, rfl⟩ more

/-- A stopped request, and the log it keeps while the next one runs. -/
theorem log_wellFormed_run_sample :
    let ops := [sampleSubmit 5 "hi" "k1", .stop 6 1 2 0 0]
    let s := run (step sampleBook) sampleStore ops
    ∃ r, s.requests.get 0 = some r ∧ LogWellFormed r (s.log 0)
      ∧ Over 0 .stopped (s.log 0) (run (step sampleBook) sampleStore
          (ops ++ [sampleSubmit 7 "again" "k2", sampleClaim 8])) := by
  intro ops s
  have hst : (s.requests.get 0).map (·.status) = some .stopped := by decide +kernel
  obtain ⟨r, hr, hstatus⟩ := Option.map_eq_some_iff.mp hst
  obtain ⟨hwf, hover⟩ := log_wellFormed_run sampleStore_opening ops 0 r hr
  rw [hstatus] at hover
  exact ⟨r, hr, hwf, hover rfl _⟩

end Mosaic.Chat
