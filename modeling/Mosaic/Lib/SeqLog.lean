/-
Append-only logs with contiguous sequence numbers, an opening event and
at most one closing event.

`WellFormed` is stated for a log together with the two facts its owner
keeps beside it: the number of the last event and whether the log is
closed. The three rules (`single`, `append`, `close`) are the only ways
such a log grows; the rest reads the shape back.
-/
import Mathlib

namespace Mosaic.Lib

namespace SeqLog

variable {ε : Type} {seq : ε → Int} {opens closes : ε → Bool}
  {last : Int} {closed : Prop} {log : List ε} {e : ε}

/-- A log numbered `0..last` that starts with an opening event and whose
only closing event, if it is closed, is its last one. -/
structure WellFormed (seq : ε → Int) (opens closes : ε → Bool) (last : Int)
    (closed : Prop) (log : List ε) : Prop where
  /-- The numbers are `0, 1, …` in the order written. -/
  sequences : log.map seq = (List.range log.length).map Int.ofNat
  /-- The owner's counter is the last number. -/
  counter : last = (log.length : Int) - 1
  /-- The first event opens. -/
  opened : ∃ first rest, log = first :: rest ∧ opens first = true
  /-- Nothing follows a closing event. -/
  closing_last : ∀ i x, log[i]? = some x → closes x = true → i + 1 = log.length
  /-- There is one exactly when the owner says so. -/
  closed_iff : (∃ x ∈ log, closes x = true) ↔ closed

/-- The log of a fresh owner. -/
theorem single (hseq : seq e = 0) (hopens : opens e = true)
    (hcloses : closes e = false) (hclosed : ¬ closed) :
    WellFormed seq opens closes 0 closed [e] where
  sequences := by simp [hseq]
  counter := rfl
  opened := ⟨e, [], rfl, hopens⟩
  closing_last := by
    intro i x hx _
    obtain ⟨hlt, -⟩ := List.getElem?_eq_some_iff.mp hx
    simp only [List.length_singleton] at hlt ⊢
    omega
  closed_iff := by simp [hcloses, hclosed]

namespace WellFormed

/-- The event at a position carries the position as its number. -/
theorem seq_eq (h : WellFormed seq opens closes last closed log) {i : Nat}
    (hi : log[i]? = some e) : seq e = i := by
  have hmap : (log.map seq)[i]? = some (seq e) := by
    rw [List.getElem?_map, hi]
    rfl
  rw [h.sequences, List.getElem?_map] at hmap
  obtain ⟨hlt, -⟩ := List.getElem?_eq_some_iff.mp hi
  rw [List.getElem?_range hlt] at hmap
  exact (Option.some.inj hmap).symm

/-- One more event, numbered next, of an open log. The new closing
status is the new event's. -/
theorem snoc (h : WellFormed seq opens closes last closed log) (hopen : ¬ closed)
    (hseq : seq e = last + 1) {closed' : Prop} (hclosed : closes e = true ↔ closed') :
    WellFormed seq opens closes (last + 1) closed' (log ++ [e]) where
  sequences := by
    have hlast : seq e = Int.ofNat log.length := by
      rw [hseq, h.counter]
      simp
    simp only [List.map_append, h.sequences, List.map_cons, hlast, List.map_nil,
      List.length_append, List.length_singleton, List.range_succ]
  counter := by
    rw [h.counter]
    simp
  opened := by
    obtain ⟨first, rest, rfl, hfirst⟩ := h.opened
    exact ⟨first, rest ++ [e], rfl, hfirst⟩
  closing_last := by
    intro i x hx hcloses
    rw [List.getElem?_append] at hx
    split at hx
    · -- an old closing event would have closed the log already
      exact absurd (h.closed_iff.mp ⟨x, List.mem_of_getElem? hx, hcloses⟩) hopen
    · obtain ⟨hlt, -⟩ := List.getElem?_eq_some_iff.mp hx
      simp only [List.length_append, List.length_singleton] at hlt ⊢
      omega
  closed_iff := by
    rw [← hclosed]
    constructor
    · rintro ⟨x, hx, hcloses⟩
      rw [List.mem_append, List.mem_singleton] at hx
      cases hx with
      | inl hx => exact absurd (h.closed_iff.mp ⟨x, hx, hcloses⟩) hopen
      | inr hx => exact hx ▸ hcloses
    · intro hcloses
      exact ⟨e, by simp, hcloses⟩

/-- The owner may restate its closing status. -/
theorem congr (h : WellFormed seq opens closes last closed log) {closed' : Prop}
    (hc : closed ↔ closed') : WellFormed seq opens closes last closed' log :=
  { h with closed_iff := h.closed_iff.trans hc }

/-- A well-formed log is sorted by number. -/
theorem sorted (h : WellFormed seq opens closes last closed log) :
    log.Pairwise fun a b => seq a ≤ seq b := by
  rw [← List.pairwise_map (f := seq) (R := (· ≤ ·)), h.sequences, List.pairwise_map]
  exact (List.pairwise_lt_range (n := log.length)).imp fun hab =>
    Int.ofNat_le.mpr (Nat.le_of_lt hab)

/-- The events numbered from `k` on are the log without its first `k`. -/
theorem filter_from (h : WellFormed seq opens closes last closed log) (k : Nat) :
    log.filter (fun e => (k : Int) ≤ seq e) = log.drop k := by
  have htake : (log.take k).filter (fun e => (k : Int) ≤ seq e) = [] := by
    refine List.filter_eq_nil_iff.mpr fun e he => ?_
    obtain ⟨i, hi⟩ := List.getElem?_of_mem he
    rw [List.getElem?_take] at hi
    split at hi
    · have := h.seq_eq hi
      simp only [decide_eq_true_eq]
      omega
    · cases hi
  have hdrop : (log.drop k).filter (fun e => (k : Int) ≤ seq e) = log.drop k := by
    refine List.filter_eq_self.mpr fun e he => ?_
    obtain ⟨i, hi⟩ := List.getElem?_of_mem he
    rw [List.getElem?_drop] at hi
    have := h.seq_eq hi
    simp only [decide_eq_true_eq]
    omega
  conv_lhs => rw [← List.take_append_drop k log]
  rw [List.filter_append, htake, hdrop, List.nil_append]

/-- The events numbered below `k` are the first `k`. -/
theorem filter_below (h : WellFormed seq opens closes last closed log) (k : Nat) :
    log.filter (fun e => seq e < (k : Int)) = log.take k := by
  have htake : (log.take k).filter (fun e => seq e < (k : Int)) = log.take k := by
    refine List.filter_eq_self.mpr fun e he => ?_
    obtain ⟨i, hi⟩ := List.getElem?_of_mem he
    rw [List.getElem?_take] at hi
    split at hi
    · have := h.seq_eq hi
      simp only [decide_eq_true_eq]
      omega
    · cases hi
  have hdrop : (log.drop k).filter (fun e => seq e < (k : Int)) = [] := by
    refine List.filter_eq_nil_iff.mpr fun e he => ?_
    obtain ⟨i, hi⟩ := List.getElem?_of_mem he
    rw [List.getElem?_drop] at hi
    have := h.seq_eq hi
    simp only [decide_eq_true_eq]
    omega
  conv_lhs => rw [← List.take_append_drop k log]
  rw [List.filter_append, htake, hdrop, List.append_nil]

/-- The last event carries the owner's counter. -/
theorem getLast_seq (h : WellFormed seq opens closes last closed log) :
    ∃ e, log.getLast? = some e ∧ seq e = last := by
  obtain ⟨first, rest, hlog, -⟩ := h.opened
  have hne : log ≠ [] := by simp [hlog]
  refine ⟨log.getLast hne, List.getLast?_eq_some_getLast hne, ?_⟩
  have hi : log[log.length - 1]? = some (log.getLast hne) := by
    rw [← List.getLast?_eq_getElem?, List.getLast?_eq_some_getLast hne]
  have hpos : 0 < log.length := List.length_pos_of_ne_nil hne
  rw [h.seq_eq hi, h.counter]
  omega

end WellFormed

end SeqLog

end Mosaic.Lib
