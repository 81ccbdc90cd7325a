/-
When the generator of the text stream returns normally.

`Delivered` says, on the lines of the body and without the loop, what a
complete stream is: a successful answer whose data lines reach `[DONE]`,
every one before it decoding, with a finish reason and exactly one usage
report. `streamItems_delivered` is the soundness of the loop: a list of
items without a failure comes from such a feed, and its chunks carry
exactly the texts and the usage of the responses.
-/
import Mosaic.Providers.Stream
import Mathlib

namespace Mosaic.Providers

open Lib

variable {decode : String → Option StreamResponse} {model : String}
  {requestId : Option String} {broken : Bool} {lines : List String}
  {parsed : StreamResponse} {chunk : TextStreamChunk}

-- ================================================================= spec

/-- The text of a response: the content of its first choice. -/
def StreamResponse.text (r : StreamResponse) : String :=
  (r.choices.head?.bind (·.content)).getD ""

/-- Its finish reason, if it has one. -/
def StreamResponse.finish (r : StreamResponse) : Option String :=
  r.choices.head?.bind (·.finishReason)

/-- The texts of a stream, put together. -/
def textOf (responses : List StreamResponse) : String :=
  String.join (responses.map (·.text))

/-- The responses of a body that was read to its `[DONE]`. -/
def ReadToEnd (decode : String → Option StreamResponse) (lines : List String)
    (responses : List StreamResponse) : Prop :=
  "[DONE]" ∈ lines.filterMap dataOf
    ∧ ((lines.filterMap dataOf).takeWhile (· != "[DONE]")).map decode
        = responses.map some

/-- The provider delivered `responses` in full and reported the usage
`u`, once. -/
structure Delivered (decode : String → Option StreamResponse) (feed : Feed)
    (responses : List StreamResponse) (u : TokenUsage) : Prop where
  body : ∃ answer lines broken, feed = .answered answer lines broken
    ∧ answer.isSuccess = true ∧ ReadToEnd decode lines responses
  finished : ∃ r ∈ responses, r.finish.isSome = true
  reported : ∃ w, responses.filterMap (·.usage) = [w] ∧ toUsage w = some u

/-- A feed delivers one list of responses and one usage. -/
theorem Delivered.unique {feed : Feed} {rs rs' : List StreamResponse}
    {u u' : TokenUsage} (h : Delivered decode feed rs u)
    (h' : Delivered decode feed rs' u') : rs = rs' ∧ u = u' := by
  obtain ⟨answer, lines, broken, rfl, -, -, hmap⟩ := h.body
  obtain ⟨answer', lines', broken', hfeed, -, -, hmap'⟩ := h'.body
  cases hfeed
  have hrs : rs = rs' :=
    List.map_injective_iff.mpr (Option.some_injective _) (hmap.symm.trans hmap')
  subst hrs
  obtain ⟨w, hw, hu⟩ := h.reported
  obtain ⟨w', hw', hu'⟩ := h'.reported
  rw [hw] at hw'
  obtain rfl : w = w' := by simpa using hw'
  exact ⟨rfl, Option.some.inj (hu.symm.trans hu')⟩

-- ============================================================= one line

theorem yieldChunk_ok {delta : String} {finish : Option String} {finished : Bool}
    (h : yieldChunk model requestId parsed delta finish = .ok (chunk, finished)) :
    chunk.delta = delta ∧ finished = finish.isSome
      ∧ chunk.usage = parsed.usage.bind toUsage
      ∧ (∀ w, parsed.usage = some w → ∃ u, toUsage w = some u) := by
  simp only [yieldChunk, bind_eq_ok, orRaise_eq_ok, pure_eq_ok, Prod.mk.injEq] at h
  obtain ⟨id, -, usage, husage, rfl, rfl⟩ := h
  refine ⟨rfl, rfl, ?_⟩
  cases hw : parsed.usage with
  | none =>
      rw [hw, usageOrRaise, pure_eq_ok] at husage
      exact ⟨husage.symm, by simp⟩
  | some w =>
      simp only [hw, usageOrRaise, bind_eq_ok, orRaise_eq_ok, pure_eq_ok] at husage
      obtain ⟨u, hu, rfl⟩ := husage
      exact ⟨by simp [hu], fun w' hw' => ⟨u, Option.some.inj hw' ▸ hu⟩⟩

/-- A chunk carries the text, the finish and the usage of its response. -/
theorem chunkOf_ok {sawUsage finished : Bool}
    (h : chunkOf model requestId sawUsage parsed = .ok (chunk, finished)) :
    chunk.delta = parsed.text ∧ finished = parsed.finish.isSome
      ∧ (parsed.usage.isSome = true → sawUsage = false)
      ∧ chunk.usage = parsed.usage.bind toUsage
      ∧ (∀ w, parsed.usage = some w → ∃ u, toUsage w = some u) := by
  simp only [chunkOf, bind_eq_ok, raiseIf_eq_ok] at h
  obtain ⟨-, -, -, hseen, h⟩ := h
  have hsaw : parsed.usage.isSome = true → sawUsage = false := by
    intro hsome
    simpa using fun htrue => hseen ⟨hsome, htrue⟩
  split at h
  · next hchoices =>
      simp only [bind_eq_ok] at h
      obtain ⟨-, -, h⟩ := h
      obtain ⟨hdelta, hfin, huse, hvalid⟩ := yieldChunk_ok h
      refine ⟨?_, ?_, hsaw, huse, hvalid⟩
      · simp [hdelta, StreamResponse.text, hchoices]
      · simp [hfin, StreamResponse.finish, hchoices]
  · next choice rest hchoices =>
      obtain ⟨hdelta, hfin, huse, hvalid⟩ := yieldChunk_ok h
      refine ⟨?_, ?_, hsaw, huse, hvalid⟩
      · simp [hdelta, StreamResponse.text, hchoices]
      · simp [hfin, StreamResponse.finish, hchoices]

-- ============================================================= the loop

/-- The body read by the loop from a state in which a finish reason and a
usage may already have been seen. -/
structure LoopRead (decode : String → Option StreamResponse) (lines : List String)
    (sawTerminal sawUsage : Bool) (chunks : List TextStreamChunk)
    (responses : List StreamResponse) : Prop where
  read : ReadToEnd decode lines responses
  texts : chunks.map (·.delta) = responses.map (·.text)
  usages : chunks.map (·.usage) = responses.map fun r => r.usage.bind toUsage
  valid : ∀ r ∈ responses, ∀ w, r.usage = some w → ∃ u, toUsage w = some u
  finished : sawTerminal = true ∨ ∃ r ∈ responses, r.finish.isSome = true
  reported : (responses.filterMap (·.usage)).length = if sawUsage then 0 else 1

/-- One more line in front. -/
theorem LoopRead.cons {line data : String} {rest : List String}
    {sawTerminal sawUsage finished : Bool} {cs : List TextStreamChunk}
    {responses : List StreamResponse}
    (hr : LoopRead decode rest (sawTerminal || finished)
      (sawUsage || parsed.usage.isSome) cs responses)
    (hdata : dataOf line = some data) (hdone : data ≠ "[DONE]")
    (hdecode : decode data = some parsed) (hdelta : chunk.delta = parsed.text)
    (hfin : finished = parsed.finish.isSome)
    (hsaw : parsed.usage.isSome = true → sawUsage = false)
    (huse : chunk.usage = parsed.usage.bind toUsage)
    (hvalid : ∀ w, parsed.usage = some w → ∃ u, toUsage w = some u) :
    LoopRead decode (line :: rest) sawTerminal sawUsage (chunk :: cs)
      (parsed :: responses) where
  read := by
    obtain ⟨hmem, hmap⟩ := hr.read
    refine ⟨?_, ?_⟩
    · rw [List.filterMap_cons_some hdata]
      exact List.mem_cons_of_mem _ hmem
    · rw [List.filterMap_cons_some hdata, List.takeWhile_cons_of_pos (by simpa using hdone)]
      simp [hdecode, hmap]
  texts := by simp [hdelta, hr.texts]
  usages := by simp [huse, hr.usages]
  valid := by
    intro r hmem w hw
    obtain rfl | hmem := List.mem_cons.mp hmem
    · exact hvalid w hw
    · exact hr.valid r hmem w hw
  finished := by
    obtain hsaw' | ⟨r, hmem, hsome⟩ := hr.finished
    · rw [Bool.or_eq_true, hfin] at hsaw'
      obtain hsaw' | hsome := hsaw'
      · exact Or.inl hsaw'
      · exact Or.inr ⟨parsed, List.mem_cons_self, hsome⟩
    · exact Or.inr ⟨r, List.mem_cons_of_mem _ hmem, hsome⟩
  reported := by
    have hlen := hr.reported
    cases hu : parsed.usage with
    | none =>
        simp only [hu, Option.isSome_none, Bool.or_false] at hlen
        rw [List.filterMap_cons_none hu, hlen]
    | some w =>
        have hfalse := hsaw (by simp [hu])
        simp only [hu, Option.isSome_some, Bool.or_true, if_true] at hlen
        rw [List.filterMap_cons_some hu, List.length_cons, hlen, hfalse]
        rfl

theorem streamLines_read {sawTerminal sawUsage : Bool} {chunks : List TextStreamChunk}
    (h : streamLines decode model requestId broken sawTerminal sawUsage lines
      = chunks.map .chunk) :
    ∃ responses, LoopRead decode lines sawTerminal sawUsage chunks responses := by
  induction lines generalizing sawTerminal sawUsage chunks with
  | nil =>
      cases chunks with
      | nil => simp [streamLines] at h
      | cons c cs => simp [streamLines] at h
  | cons line rest ih =>
      unfold streamLines at h
      split at h
      · next hdata =>
          obtain ⟨responses, hr⟩ := ih h
          refine ⟨responses, { hr with read := ?_ }⟩
          simpa [ReadToEnd, hdata] using hr.read
      · next data hdata =>
          split_ifs at h with hdone hseen
          · -- `[DONE]`, with everything seen
            subst hdone
            obtain rfl : chunks = [] := by simpa using h.symm
            exact ⟨[],
              { read := by simp [ReadToEnd, hdata], texts := rfl, usages := rfl
                valid := by simp, finished := Or.inl hseen.1
                reported := by simp [hseen.2] }⟩
          · cases chunks with
            | nil => simp at h
            | cons c cs => simp at h
          · split at h
            · cases chunks with
              | nil => simp at h
              | cons c cs => simp at h
            · next parsed hdecode =>
                split at h
                · cases chunks with
                  | nil => simp at h
                  | cons c cs => simp at h
                · next chunk finished hchunk =>
                    obtain ⟨hdelta, hfin, hsaw, huse, hvalid⟩ := chunkOf_ok hchunk
                    cases chunks with
                    | nil => simp at h
                    | cons c cs =>
                        simp only [List.map_cons, List.cons.injEq,
                          StreamItem.chunk.injEq] at h
                        obtain ⟨rfl, h⟩ := h
                        obtain ⟨responses, hr⟩ := ih h
                        refine ⟨parsed :: responses, ?_⟩
                        exact hr.cons hdata hdone hdecode hdelta hfin hsaw huse hvalid

/-- A generator that returns normally has read a complete stream, and its
chunks are the responses. -/
theorem streamItems_delivered {feed : Feed} {chunks : List TextStreamChunk}
    (h : streamItems decode model feed = chunks.map .chunk) :
    ∃ responses u, Delivered decode feed responses u
      ∧ chunks.map (·.delta) = responses.map (·.text)
      ∧ chunks.filterMap (·.usage) = [u] := by
  have hfail : ∀ f : CallFailure, [StreamItem.fail f] ≠ chunks.map .chunk := by
    intro f
    cases chunks with
    | nil => simp
    | cons c cs => simp
  cases feed with
  | connectError => exact absurd h (hfail _)
  | transportError => exact absurd h (hfail _)
  | answered answer lines broken =>
      simp only [streamItems] at h
      split_ifs at h with hsuccess
      · exact absurd h (hfail _)
      · obtain ⟨responses, hr⟩ := streamLines_read h
        have hlen : (responses.filterMap (·.usage)).length = 1 := hr.reported
        obtain ⟨w, hw⟩ := List.length_eq_one_iff.mp hlen
        obtain ⟨r, hmem, hrw⟩ : ∃ r ∈ responses, r.usage = some w := by
          have : w ∈ responses.filterMap (·.usage) := by simp [hw]
          simpa using List.mem_filterMap.mp this
        obtain ⟨u, hu⟩ := hr.valid r hmem w hrw
        refine ⟨responses, u,
          { body := ⟨answer, lines, broken, rfl, by simpa using hsuccess, hr.read⟩
            finished := hr.finished.resolve_left (by simp)
            reported := ⟨w, hw, hu⟩ }, hr.texts, ?_⟩
        -- the usages of the chunks are those of the responses, converted
        calc chunks.filterMap (·.usage)
            = (chunks.map (·.usage)).filterMap id := by simp [List.filterMap_map]
          _ = (responses.map fun r => r.usage.bind toUsage).filterMap id := by
              rw [hr.usages]
          _ = (responses.filterMap (·.usage)).filterMap toUsage := by
              simp [List.filterMap_map, List.filterMap_filterMap]
          _ = [u] := by simp [hw, hu]

end Mosaic.Providers
