/-
The wire: what the client reads is what the service handed over.

# Chunks

Reading commutes with cutting. The decoder emits the same text however the
bytes were cut, and a line the client found in a buffer is found in every
longer one, with what follows it appended (`nextLine_append`); a CR at the
end of a buffer is no line yet. So the client that drained one chunk after
the other has consumed the lines of the whole text (`readChunks_eq`).

# Round trip

A frame is three lines, none of which has a line end inside: the text of
an event stays above the control characters. Its payload is parsed to the
event of the client (`chatStreamEvent_dump`), and dispatched where the
service validated it: `Tracks` ties the client's variables to those of the
service's loop, and both move in step.
-/
import Mosaic.Chat.Sse

namespace Mosaic.Chat

open Lib JsonText Utf8

variable (d : Doubles) (q : SseRequest)

-- ================================================================= lines

/-- No line end inside. -/
def OneLine (line : List Char) : Prop := ∀ c ∈ line, separator c = false

theorem span_line {line : List Char} {c : Char} (hline : OneLine line)
    (hc : separator c = true) (tail : List Char) :
    (line ++ c :: tail).takeWhile (fun c => !separator c) = line
      ∧ (line ++ c :: tail).dropWhile (fun c => !separator c) = c :: tail := by
  have hpos : ∀ c ∈ line, (!separator c) = true := by
    intro c hc
    simp [hline c hc]
  rw [List.takeWhile_append_of_pos hpos, List.dropWhile_append_of_pos hpos]
  simp [hc]

theorem nextLine_lf {line : List Char} (hline : OneLine line) (rest : List Char) :
    nextLine (line ++ '\n' :: rest) = some (line, rest) := by
  obtain ⟨htake, hdrop⟩ := span_line hline (show separator '\n' = true from rfl) rest
  rw [nextLine, hdrop, htake]
  rfl

theorem nextLine_crlf {line : List Char} (hline : OneLine line) (rest : List Char) :
    nextLine (line ++ '\r' :: '\n' :: rest) = some (line, rest) := by
  obtain ⟨htake, hdrop⟩ := span_line hline (show separator '\r' = true from rfl)
    ('\n' :: rest)
  rw [nextLine, hdrop, htake]
  rfl

theorem nextLine_cr {line : List Char} (hline : OneLine line) {c : Char} (hc : c ≠ '\n')
    (rest : List Char) : nextLine (line ++ '\r' :: c :: rest) = some (line, c :: rest) := by
  obtain ⟨htake, hdrop⟩ := span_line hline (show separator '\r' = true from rfl) (c :: rest)
  rw [nextLine, hdrop, htake]
  split
  · next heq => cases heq
  · next heq => cases heq
  · next heq =>
      cases heq
      exact absurd rfl hc
  · next heq =>
      cases heq
      rfl

/-- The three line ends. -/
theorem nextLine_cases {buffer line rest : List Char}
    (h : nextLine buffer = some (line, rest)) :
    OneLine line ∧ (buffer = line ++ '\n' :: rest ∨ buffer = line ++ '\r' :: '\n' :: rest
      ∨ ∃ c rest', c ≠ '\n' ∧ rest = c :: rest' ∧ buffer = line ++ '\r' :: c :: rest') := by
  have hsplit : buffer.takeWhile (fun c => !separator c)
      ++ buffer.dropWhile (fun c => !separator c) = buffer :=
    List.takeWhile_append_dropWhile
  have hline : OneLine (buffer.takeWhile fun c => !separator c) := by
    intro c hc
    have := List.mem_takeWhile_imp (p := fun c => !separator c) hc
    simpa using this
  have hhead := List.head?_dropWhile_not (fun c => !separator c) buffer
  unfold nextLine at h
  split at h
  · cases h
  · cases h
  · next rest heq =>
      cases h
      rw [heq] at hsplit
      exact ⟨hline, .inr (.inl hsplit.symm)⟩
  · next c rest hlone hpair heq =>
      cases h
      rw [heq] at hsplit hhead
      have hc : c = '\n' ∨ c = '\r' := by
        simpa [separator, or_iff_not_imp_left] using hhead
      refine ⟨hline, ?_⟩
      obtain rfl | rfl := hc
      · exact .inl hsplit.symm
      · cases rest with
        | nil => exact absurd rfl (hlone rfl)
        | cons c rest =>
            have hc : c ≠ '\n' := by
              rintro rfl
              exact hpair rest rfl rfl
            exact .inr (.inr ⟨c, rest, hc, rfl, hsplit.symm⟩)

/-- A line that was found stays where it is when more text arrives. -/
theorem nextLine_append {buffer line rest : List Char} (more : List Char)
    (h : nextLine buffer = some (line, rest)) :
    nextLine (buffer ++ more) = some (line, rest ++ more) := by
  obtain ⟨hline, rfl | rfl | ⟨c, rest, hc, rfl, rfl⟩⟩ := nextLine_cases h
  · rw [List.append_assoc]
    exact nextLine_lf hline (rest ++ more)
  · rw [List.append_assoc]
    exact nextLine_crlf hline (rest ++ more)
  · rw [List.append_assoc]
    exact nextLine_cr hline hc (rest ++ more)

-- ================================================================ chunks

/-- One generator after the other. -/
def andThen {α β : Type} (y : Yields α) (next : α → Yields β) : Yields β :=
  match y with
  | (events, .error e) => (events, .error e)
  | (events, .ok a) => (events ++ (next a).1, (next a).2)

theorem andThen_assoc {α β γ : Type} (y : Yields α) (f : α → Yields β)
    (g : β → Yields γ) : andThen (andThen y f) g = andThen y fun a => andThen (f a) g := by
  obtain ⟨events, e | a⟩ := y
  · rfl
  · rcases hf : f a with ⟨more, e | b⟩
    · simp [andThen, hf]
    · simp [andThen, hf]

/-- What one line does. -/
def lineYields (c : Client) (line : List Char) : Yields Client :=
  match consumeLine d q c line with
  | .error e => ([], .error e)
  | .ok (event, c) => (event.toList, .ok c)

theorem drain_none {c : Client} {buffer : List Char} (h : nextLine buffer = none) :
    drain d q c buffer = ([], .ok (c, buffer)) := by
  rw [drain]
  split
  · rfl
  · next h' => rw [h] at h'; cases h'

theorem drain_some {c : Client} {buffer line rest : List Char}
    (h : nextLine buffer = some (line, rest)) :
    drain d q c buffer = andThen (lineYields d q c line) fun c => drain d q c rest := by
  rw [drain]
  split
  · next h' => rw [h] at h'; cases h'
  · next line' rest' h' =>
      rw [h] at h'
      cases h'
      unfold lineYields
      cases consumeLine d q c line with
      | error e => rfl
      | ok read => rfl

/-- The lines of a longer buffer: first those there were. -/
theorem drain_append (c : Client) (buffer more : List Char) :
    drain d q c (buffer ++ more)
      = andThen (drain d q c buffer) fun p => drain d q p.1 (p.2 ++ more) := by
  induction hn : buffer.length using Nat.strongRecOn generalizing c buffer with
  | ind n ih =>
      cases hline : nextLine buffer with
      | none => rw [drain_none d q hline]; rfl
      | some p =>
          obtain ⟨line, rest⟩ := p
          have hlt := nextLine_shorter hline
          rw [drain_some d q hline, drain_some d q (nextLine_append more hline),
            andThen_assoc]
          congr 1
          funext c
          exact ih rest.length (by omega) c rest rfl

/-- What is left in the buffer is no whole line. -/
theorem drain_rest {c c' : Client} {buffer rest : List Char} {events : List ClientEvent}
    (h : drain d q c buffer = (events, .ok (c', rest))) : nextLine rest = none := by
  induction hn : buffer.length using Nat.strongRecOn generalizing c buffer events with
  | ind n ih =>
      cases hline : nextLine buffer with
      | none =>
          rw [drain_none d q hline] at h
          cases h
          exact hline
      | some p =>
          obtain ⟨line, tail⟩ := p
          have hlt := nextLine_shorter hline
          rw [drain_some d q hline] at h
          rcases hy : lineYields d q c line with ⟨first, e | c₁⟩
          · rw [hy] at h
            cases h
          · rw [hy] at h
            have htail : drain d q c₁ tail
                = ((drain d q c₁ tail).1, .ok (c', rest)) :=
              Prod.ext rfl (congrArg (fun y => y.2) h)
            exact ih tail.length (by omega) htail rfl

theorem decode_nil (t : TextDecoder) : t.decode [] = (t, []) := rfl

theorem readChunks_cons (t : TextDecoder) (c : Client) (buffer : List Char)
    (chunk : List UInt8) (chunks : List (List UInt8)) :
    readChunks d q t c buffer (chunk :: chunks)
      = andThen (drain d q c (buffer ++ (t.decode chunk).2))
          fun p => readChunks d q (t.decode chunk).1 p.1 p.2 chunks := by
  rw [readChunks]
  rcases hd : drain d q c (buffer ++ (t.decode chunk).2) with ⟨events, e | p⟩
  · rfl
  · rfl

/-- Chunk by chunk the client consumes the lines of the whole text. -/
theorem readChunks_eq (t : TextDecoder) (c : Client) {buffer : List Char}
    (chunks : List (List UInt8)) (h : nextLine buffer = none) :
    readChunks d q t c buffer chunks
      = andThen (drain d q c (buffer ++ (t.decode chunks.flatten).2))
          fun p => ([], .ok ((t.decode chunks.flatten).1, p)) := by
  induction chunks generalizing t c buffer with
  | nil =>
      rw [List.flatten_nil, decode_nil, List.append_nil, drain_none d q h]
      rfl
  | cons chunk chunks ih =>
      have happend := drain_append d q c (buffer ++ (t.decode chunk).2)
        ((t.decode chunk).1.decode chunks.flatten).2
      rw [readChunks_cons, List.flatten_cons, TextDecoder.decode_append,
        ← List.append_assoc, happend, andThen_assoc]
      rcases hd : drain d q c (buffer ++ (t.decode chunk).2) with ⟨events, e | p⟩
      · rfl
      · have hrest := ih (t.decode chunk).1 p.1 (drain_rest d q hd)
        simp only [andThen, hrest]

/-- A client that reads to the end, from the text alone. -/
def readText (c : Client) (t : TextDecoder) (text : List Char) :
    List ClientEvent × Option String :=
  match drain d q c text with
  | (events, .error e) => (events, some e)
  | (events, .ok (c, buffer)) =>
      (events ++ (finishStream d q t c buffer).1, (finishStream d q t c buffer).2)

/-- What the client makes of a response is a function of its bytes. -/
theorem parseSse_eq (requestId messageId : JsString) (chunks : List (List UInt8)) :
    parseSse d q requestId messageId chunks
      = readText d q (Client.start d q requestId messageId)
          (TextDecoder.start.decode chunks.flatten).1
          (TextDecoder.start.decode chunks.flatten).2 := by
  rw [parseSse, readChunks_eq d q _ _ _ rfl, List.nil_append, readText]
  rcases hd : drain d q (Client.start d q requestId messageId)
    (TextDecoder.start.decode chunks.flatten).2 with ⟨events, e | p⟩
  · rfl
  · simp [andThen]

-- ================================================================ events

/-- A text as the client has it. -/
def jsText (s : String) : JsString := jsString s.toList

section

variable (uuid : Nat → String)

/-- The body of an event as the client has it. -/
def EventBody.client : EventBody → ClientBody
  | .started => .started
  | .delta text => .delta (jsText text)
  | .completed content => .completed (jsText content)
  | .stopped => .stopped
  | .failed error =>
      .failed { code := jsText error.code, message := jsText error.message
                requestId := jsText (uuid error.requestId), retryable := error.retryable
                details := some .null }

/-- An event as the client has it. -/
def StreamEvent.client (e : StreamEvent) : ClientEvent :=
  { requestId := jsText (uuid e.requestId), conversationId := jsText (uuid e.conversationId)
    messageId := jsText (uuid e.messageId), sequence := e.sequenceNo
    body := e.body.client uuid }

/-- The values of the fields an event has for its type. -/
def EventBody.values : EventBody → List JsValue
  | .started => []
  | .delta text => [.string (jsText text)]
  | .completed content => [.string (jsText content)]
  | .stopped => []
  | .failed error =>
      [.object [(jsText "code", .string (jsText error.code)),
        (jsText "message", .string (jsText error.message)),
        (jsText "request_id", .string (jsText (uuid error.requestId))),
        (jsText "retryable", .bool error.retryable), (jsText "details", .null)]]

/-- The values of an event's fields. -/
def StreamEvent.values (e : StreamEvent) : List JsValue :=
  [.string (jsText (uuid e.requestId)), .string (jsText (uuid e.conversationId)),
   .string (jsText (uuid e.messageId)), .string (jsText e.body.type),
   .number (.integer e.sequenceNo)] ++ e.body.values uuid

end

theorem reads_sequence {n : Int} (h0 : 0 ≤ n) (h : n < 2 ^ 53) :
    Reads d.read (dumps (.int n)) (.number (.integer n)) := by
  obtain ⟨k, rfl⟩ := Int.eq_ofNat_of_zero_le h0
  have hreads : Reads d.read (dumps (.int k)) (.number (d.read (Nat.toDigits 10 k))) :=
    reads_nat k
  rwa [d.read_exact k (by omega)] at hreads

variable (uuid : Nat → String)

theorem reads_body (body : EventBody) :
    List.Forall₂ (fun f v => Reads d.read (dumps f.2) v) (body.dump uuid)
      (body.values uuid) := by
  cases body with
  | started => exact .nil
  | delta text => exact .cons (reads_string text) .nil
  | completed content => exact .cons (reads_string content) .nil
  | stopped => exact .nil
  | failed error =>
      exact .cons (reads_object (by simp) (.cons (reads_string _) (.cons (reads_string _)
        (.cons (reads_string _) (.cons (reads_bool _) (.cons reads_null .nil)))))) .nil

/-- The payload of a frame is one line, read as the event's fields. -/
theorem reads_event {e : StreamEvent} (h0 : 0 ≤ e.sequenceNo)
    (h : e.sequenceNo < 2 ^ 53) :
    Reads d.read (dumps (.obj (e.dump uuid)))
      (.object (readFields (e.dump uuid) (e.values uuid))) := by
  refine reads_object (by simp [StreamEvent.dump]) ?_
  exact .cons (reads_string _) (.cons (reads_string _) (.cons (reads_string _)
    (.cons (reads_string _) (.cons (reads_sequence d h0 h) (reads_body d uuid e.body)))))

-- ============================================================ validation

theorem jsText_eq_nil {s : String} (h : s ≠ "") : (jsText s).isEmpty = false := by
  have hlist : s.toList ≠ [] := by simpa using h
  cases hs : s.toList with
  | nil => exact absurd hs hlist
  | cons c cs =>
      rw [jsText, hs, jsString, List.flatMap_cons, units]
      split
      · rfl
      · rfl

theorem nonEmptyString_text {s : String} (h : s ≠ "") :
    nonEmptyString (some (.string (jsText s))) = some (jsText s) := by
  simp [nonEmptyString, JsValue.string?, jsText_eq_nil h]

/-- The characters of a public code are ASCII. -/
theorem code_char_small {c : Char}
    (h : (('A' ≤ c && c ≤ 'Z') || ('0' ≤ c && c ≤ '9') || c == '_') = true) :
    c.toNat < 128 := by
  simp only [Bool.or_eq_true, Bool.and_eq_true, decide_eq_true_eq, beq_iff_eq] at h
  obtain (⟨-, h⟩ | ⟨-, h⟩) | rfl := h
  · have hle : c.toNat ≤ 'Z'.toNat := h
    exact lt_of_le_of_lt hle (by decide)
  · have hle : c.toNat ≤ '9'.toNat := h
    exact lt_of_le_of_lt hle (by decide)
  · decide

/-- The server's public codes are the client's. -/
theorem publicCode_text {s : String} (h : publicErrorCode s = true) :
    publicCode (jsText s) = true := by
  have hunits : ∀ n < 128, (('A' ≤ Char.ofNat n && Char.ofNat n ≤ 'Z')
      || ('0' ≤ Char.ofNat n && Char.ofNat n ≤ '9') || Char.ofNat n == '_') = true →
      (units (Char.ofNat n)).all (fun u =>
        (0x41 ≤ u && u ≤ 0x5A) || (0x30 ≤ u && u ≤ 0x39) || u == 0x5F) = true := by
    decide
  simp only [publicErrorCode, Bool.and_eq_true, decide_eq_true_eq, List.all_eq_true] at h
  have hne : s ≠ "" := by
    rintro rfl
    simp at h
  rw [publicCode, jsText_eq_nil hne, Bool.not_false, Bool.true_and, jsText, jsString,
    List.all_flatMap, List.all_eq_true]
  intro c hc
  have hcode := h.2 c hc
  have hchar : Char.ofNat c.toNat = c := Char.ofNat_toNat c
  have hunit := hunits c.toNat (code_char_small hcode)
  rw [hchar] at hunit
  exact hunit hcode

/-- The fields of a dumped error. -/
def errorFields (error : EventError) : List (JsString × JsValue) :=
  [(jsText "code", .string (jsText error.code)),
   (jsText "message", .string (jsText error.message)),
   (jsText "request_id", .string (jsText (uuid error.requestId))),
   (jsText "retryable", .bool error.retryable), (jsText "details", .null)]

/-- The contract of an error is the client's. -/
theorem errorBody_dump {error : EventError} (huuid : ∀ n, uuid n ≠ "")
    (hcode : publicErrorCode error.code = true) (hmessage : error.message ≠ "") :
    errorBody (.object (errorFields uuid error))
      = some { code := jsText error.code, message := jsText error.message
               requestId := jsText (uuid error.requestId), retryable := error.retryable
               details := some .null } := by
  have hne : error.code ≠ "" := by
    intro h
    rw [h] at hcode
    simp [publicErrorCode] at hcode
  have hkeys : exactKeys (errorFields uuid error)
      ["code", "message", "request_id", "retryable"] ["details"] = true := rfl
  have hcodeField : property (errorFields uuid error) "code"
      = some (.string (jsText error.code)) := rfl
  have hmessageField : property (errorFields uuid error) "message"
      = some (.string (jsText error.message)) := rfl
  have hrequestField : property (errorFields uuid error) "request_id"
      = some (.string (jsText (uuid error.requestId))) := rfl
  have hretryField : property (errorFields uuid error) "retryable"
      = some (.bool error.retryable) := rfl
  have hdetailsField : property (errorFields uuid error) "details" = some .null := rfl
  simp [errorBody, JsValue.object?, hkeys, hcodeField, hmessageField, hrequestField,
    hretryField, hdetailsField, nonEmptyString_text hne, nonEmptyString_text hmessage,
    nonEmptyString_text (huuid _), publicCode_text hcode, JsValue.bool?,
    Option.filter_some]

/-- What comes first in every event. -/
def commonFields (e : StreamEvent) : List (JsString × JsValue) :=
  [(jsText "request_id", .string (jsText (uuid e.requestId))),
   (jsText "conversation_id", .string (jsText (uuid e.conversationId))),
   (jsText "message_id", .string (jsText (uuid e.messageId))),
   (jsText "type", .string (jsText e.body.type)),
   (jsText "sequence", .number (.integer e.sequenceNo))]

/-- What comes after them. -/
def ownFields : EventBody → List (JsString × JsValue)
  | .started => []
  | .delta text => [(jsText "delta", .string (jsText text))]
  | .completed content => [(jsText "content", .string (jsText content))]
  | .stopped => []
  | .failed error => [(jsText "error", .object (errorFields uuid error))]

theorem readFields_dump (e : StreamEvent) :
    readFields (e.dump uuid) (e.values uuid) = commonFields uuid e ++ ownFields uuid e.body := by
  have hown : readFields (e.body.dump uuid) (e.body.values uuid) = ownFields uuid e.body := by
    cases e.body with
    | started => rfl
    | delta text => rfl
    | completed content => rfl
    | stopped => rfl
    | failed error => rfl
  simp only [StreamEvent.dump, StreamEvent.values, readFields, List.cons_append,
    List.nil_append, List.zipWith_cons_cons, commonFields, jsText, ← hown]

theorem property_append {fields rest : List (JsString × JsValue)} {k : String}
    (h : property rest k = none) : property (fields ++ rest) k = property fields k := by
  unfold property at h ⊢
  rw [Option.map_eq_none_iff] at h
  rw [List.reverse_append, List.find?_append, h, Option.none_or]

/-- An event passes the client's validation when its body does. -/
theorem chatStreamEvent_common {e : StreamEvent} {rest : List (JsString × JsValue)}
    (huuid : ∀ n, uuid n ≠ "") (h0 : 0 ≤ e.sequenceNo)
    (hrest : ∀ k ∈ commonKeys, property rest k = none)
    (hbody : clientBody (commonFields uuid e ++ rest) e.sequenceNo (jsText e.body.type)
      = some (e.body.client uuid)) :
    chatStreamEvent (.object (commonFields uuid e ++ rest)) = some (e.client uuid) := by
  have htype : property (commonFields uuid e ++ rest) "type"
      = some (.string (jsText e.body.type)) :=
    property_append (hrest "type" (by decide))
  have hrequest : property (commonFields uuid e ++ rest) "request_id"
      = some (.string (jsText (uuid e.requestId))) :=
    property_append (hrest "request_id" (by decide))
  have hconversation : property (commonFields uuid e ++ rest) "conversation_id"
      = some (.string (jsText (uuid e.conversationId))) :=
    property_append (hrest "conversation_id" (by decide))
  have hmessage : property (commonFields uuid e ++ rest) "message_id"
      = some (.string (jsText (uuid e.messageId))) :=
    property_append (hrest "message_id" (by decide))
  have hsequence : property (commonFields uuid e ++ rest) "sequence"
      = some (.number (.integer e.sequenceNo)) :=
    property_append (hrest "sequence" (by decide))
  simp [chatStreamEvent, JsValue.object?, htype, hrequest, hconversation, hmessage,
    hsequence, nonEmptyString_text (huuid _), JsValue.string?, JsValue.integer?,
    Option.filter_some, h0, hbody, StreamEvent.client]

theorem contract_nonneg {e : StreamEvent} (h : eventContract e = true) :
    0 ≤ e.sequenceNo := by
  unfold eventContract at h
  split at h
  · simp only [beq_iff_eq] at h
    omega
  · simp only [Bool.and_eq_true, decide_eq_true_eq] at h
    exact h.1.1
  · simp only [Bool.and_eq_true, decide_eq_true_eq] at h
    exact h.1
  · exact of_decide_eq_true h
  · simp only [Bool.and_eq_true, decide_eq_true_eq] at h
    exact h.1.1

/-- A field of one type only is no common field. -/
theorem property_own {k : String} (hk : k ∈ ["delta", "content", "error"]) (v : JsValue) :
    ∀ k' ∈ commonKeys, property [(jsText k, v)] k' = none := by
  intro k' hk'
  fin_cases hk <;> fin_cases hk' <;> rfl

theorem ne_empty_of_len {s : String} (h : 1 ≤ PyStr.len s) : s ≠ "" := by
  rintro rfl
  exact absurd h (by decide)

/-- The body of a valid event is the client's body. -/
theorem clientBody_dump {e : StreamEvent} (huuid : ∀ n, uuid n ≠ "")
    (hcontract : eventContract e = true) :
    clientBody (commonFields uuid e ++ ownFields uuid e.body) e.sequenceNo
      (jsText e.body.type) = some (e.body.client uuid) := by
  unfold eventContract at hcontract
  unfold clientBody
  cases hb : e.body with
  | started =>
      simp only [hb, beq_iff_eq] at hcontract
      have hkeys : exactKeys (commonFields uuid e ++ []) commonKeys [] = true := rfl
      exact (if_pos rfl).trans (if_pos ⟨hkeys, hcontract⟩)
  | delta text =>
      simp only [hb, Bool.and_eq_true, decide_eq_true_eq] at hcontract
      have hkeys (v : JsValue) : exactKeys (commonFields uuid e ++ [(jsText "delta", v)])
          (commonKeys ++ ["delta"]) [] = true := rfl
      have hown (v : JsValue) : property (commonFields uuid e ++ [(jsText "delta", v)])
          "delta" = some v := rfl
      have htype : jsText (EventBody.delta text).type = jsString "delta".toList := rfl
      rw [htype, if_neg (by decide), if_pos rfl]
      simp only [ownFields, hown, hkeys, if_true, EventBody.client,
        nonEmptyString_text (ne_empty_of_len hcontract.1.2)]
      rfl
  | completed content =>
      have hkeys (v : JsValue) : exactKeys (commonFields uuid e ++ [(jsText "content", v)])
          (commonKeys ++ ["content"]) [] = true := rfl
      have hown (v : JsValue) : property (commonFields uuid e ++ [(jsText "content", v)])
          "content" = some v := rfl
      have htype : jsText (EventBody.completed content).type = jsString "completed".toList :=
        rfl
      rw [htype, if_neg (by decide), if_neg (by decide), if_pos rfl]
      simp only [ownFields, hown, hkeys, if_true, EventBody.client]
      rfl
  | stopped =>
      have hkeys : exactKeys (commonFields uuid e ++ []) commonKeys [] = true := rfl
      have htype : jsText EventBody.stopped.type = jsString "stopped".toList := rfl
      rw [htype, if_neg (by decide), if_neg (by decide), if_neg (by decide), if_pos rfl]
      exact if_pos hkeys
  | failed error =>
      simp only [hb, Bool.and_eq_true, decide_eq_true_eq] at hcontract
      have hkeys (v : JsValue) : exactKeys (commonFields uuid e ++ [(jsText "error", v)])
          (commonKeys ++ ["error"]) [] = true := rfl
      have hown (v : JsValue) : property (commonFields uuid e ++ [(jsText "error", v)])
          "error" = some v := rfl
      have htype : jsText (EventBody.failed error).type = jsString "failed".toList := rfl
      have herror := errorBody_dump uuid huuid hcontract.1.2
        (ne_empty_of_len hcontract.2)
      rw [htype, if_neg (by decide), if_neg (by decide), if_neg (by decide),
        if_neg (by decide), if_pos rfl]
      simp only [ownFields, hown, hkeys, if_true, EventBody.client, Option.bind_some, herror]
      rfl

/-- A valid event is the client's event. -/
theorem chatStreamEvent_dump {e : StreamEvent} (huuid : ∀ n, uuid n ≠ "")
    (hcontract : eventContract e = true) :
    chatStreamEvent (.object (readFields (e.dump uuid) (e.values uuid)))
      = some (e.client uuid) := by
  rw [readFields_dump]
  refine chatStreamEvent_common uuid huuid (contract_nonneg hcontract) ?_
    (clientBody_dump uuid huuid hcontract)
  cases e.body with
  | started => exact fun _ _ => rfl
  | delta text => exact property_own (k := "delta") (by decide) _
  | completed content => exact property_own (k := "content") (by decide) _
  | stopped => exact fun _ _ => rfl
  | failed error => exact property_own (k := "error") (by decide) _

-- ================================================================ stream

/-- What the service yields for a request, from some point of its loop on:
every event passed `_validate_event` there. -/
def Streamed (request : ChatRequestRecord) (conversationId : Nat) :
    Int → Bool → Bool → List StreamEvent → Prop
  | _, _, _, [] => True
  | expected, started, terminal, e :: events =>
      validateEvent e request conversationId expected (!started) terminal = .ok ()
        ∧ Streamed request conversationId (expected + 1) true (terminal || e.body.terminal)
          events

/-- What an event that passed the validation is like. -/
structure Validated (e : StreamEvent) (request : ChatRequestRecord) (conversationId : Nat)
    (expected : Int) (started terminal : Bool) : Prop where
  sequence : e.sequenceNo = expected
  contract : eventContract e = true
  requestId : e.requestId = request.requestId
  conversation : e.conversationId = conversationId
  messageId : e.messageId = request.messageId
  first : started = false → e.isStarted = true ∧ expected = 0
  later : started = true → e.isStarted = false
  open_ : terminal = false
  blames : e.blames request.requestId = true

theorem validateEvent_ok {e : StreamEvent} {request : ChatRequestRecord}
    {conversationId : Nat} {expected : Int} {started terminal : Bool}
    (h : validateEvent e request conversationId expected (!started) terminal = .ok ()) :
    Validated e request conversationId expected started terminal := by
  simp only [validateEvent, seq_eq_ok, raiseIf_eq_ok] at h
  obtain ⟨hseq, hcontract, hids, hfirst, hlater, hterminal, hblames⟩ := h
  push Not at hids
  exact
    { sequence := by simpa using hseq
      contract := by simpa using hcontract
      requestId := hids.1
      conversation := hids.2.1
      messageId := hids.2.2
      first := by
        intro hs
        simpa [hs, not_or] using hfirst
      later := by
        intro hs
        simpa [hs] using hlater
      open_ := by simpa using hterminal
      blames := by simpa using hblames }

/-- The client's variables where the service's loop has come to. -/
structure Tracks (c : Client) (request : ChatRequestRecord) (expected : Int)
    (started terminal : Bool) : Prop where
  requestId : c.requestId = [] ∨ c.requestId = jsText (uuid request.requestId)
  messageId : c.messageId = [] ∨ c.messageId = jsText (uuid request.messageId)
  between : c.dataLines = [] ∧ c.eventId = none
  -- beyond 2^53 the client's successor is not exact
  expected : expected ≤ 2 ^ 53 → c.expectedSequence = expected
  fresh : c.received = false → started = q.resumed
  begun : c.received = true → started = true ∧ (q.resumed = true ∨ c.started = true)
  terminal : c.terminal = terminal

theorem integerId_digits (n : Nat) : integerId (Nat.toDigits 10 n) = true := by
  obtain rfl | hn := Nat.eq_zero_or_pos n
  · decide
  · have hhead := toDigits_head hn
    have hne : Nat.toDigits 10 n ≠ [] := Nat.toDigits_ne_nil
    have hall : (Nat.toDigits 10 n).all Char.isDigit = true :=
      List.all_eq_true.mpr fun c hc => isDigit_toDigits hc
    simp [integerId, hhead, hne, hall]

theorem client_isStarted (e : StreamEvent) : (e.client uuid).body.isStarted = e.isStarted := by
  cases hb : e.body <;> simp [StreamEvent.client, StreamEvent.isStarted, EventBody.client,
    ClientBody.isStarted, hb]

theorem client_terminal (e : StreamEvent) :
    (e.client uuid).body.terminal = e.body.terminal := by
  cases hb : e.body <;> simp [StreamEvent.client, EventBody.client,
    ClientBody.terminal, EventBody.terminal, hb]

/-- A failure names the request of its event on both sides. -/
theorem client_blames {e : StreamEvent} (h : e.blames e.requestId = true) :
    (match (e.client uuid).body with
      | .failed error => error.requestId != (e.client uuid).requestId
      | _ => false) = false := by
  cases hb : e.body with
  | failed error =>
      have herror : error.requestId = e.requestId := by simpa [StreamEvent.blames, hb] using h
      simp [StreamEvent.client, EventBody.client, hb, herror]
  | started => simp [StreamEvent.client, EventBody.client, hb]
  | delta text => simp [StreamEvent.client, EventBody.client, hb]
  | completed content => simp [StreamEvent.client, EventBody.client, hb]
  | stopped => simp [StreamEvent.client, EventBody.client, hb]

/-- The client before it checks the sequence: the first event opens the
stream. -/
def Client.opened (c : Client) (e : ClientEvent) : Client :=
  if c.received = true then c
  else { c with started := e.body.isStarted, received := true
                requestId := e.requestId, messageId := e.messageId }

/-- The client after an event. -/
def Client.after (c : Client) (e : ClientEvent) : Client :=
  { c.opened e with
    expectedSequence := d.succ e.sequence, lastSequence := e.sequence
    terminal := (c.opened e).terminal || e.body.terminal }

variable {d q uuid}

/-- Where the service validated an event, the client dispatches it. -/
theorem dispatch_event {c : Client} {e : StreamEvent} {request : ChatRequestRecord}
    {conversationId : Nat} {expected : Int} {started terminal : Bool}
    (huuid : ∀ n, uuid n ≠ "") (hq : q.conversationId = jsText (uuid conversationId))
    (htracks : Tracks q uuid c request expected started terminal)
    (hvalid : Validated e request conversationId expected started terminal)
    (hsmall : e.sequenceNo < 2 ^ 53) :
    dispatch d q { c with eventId := some (integer e.sequenceNo) }
        (dumps (.obj (e.dump uuid)))
      = .ok (e.client uuid,
          { c with eventId := some (integer e.sequenceNo) }.after d (e.client uuid)) := by
  have h0 := contract_nonneg hvalid.contract
  have hid : integer e.sequenceNo = Nat.toDigits 10 e.sequenceNo.natAbs := by
    rw [integer, if_neg (by omega)]
  have hread : d.read (integer e.sequenceNo) = .integer e.sequenceNo := by
    rw [hid, d.read_exact _ (by omega), Int.natAbs_of_nonneg h0]
  have hinteger : integerId (integer e.sequenceNo) = true := by
    rw [hid]
    exact integerId_digits _
  have hparse := (reads_event d uuid h0 hsmall).parse_eq
  have hevent := chatStreamEvent_dump uuid huuid hvalid.contract
  have hexpected : c.expectedSequence = e.sequenceNo := by
    have hseq := hvalid.sequence
    rw [htracks.expected (by omega), hseq]
  have hstarted := client_isStarted uuid e
  simp only [dispatch, bind_eq_ok, orRaise_eq_ok, raiseIf_eq_ok, pure_eq_ok]
  refine ⟨integer e.sequenceNo, ?_, _, hparse, _, hevent, (), not_not_intro hread, (), ?ids,
    (), ?unfinished, (), ?first, (), ?resumed, (), ?later, (), ?sequence, (), ?begun, (), ?blames,
    rfl⟩
  · simp [Option.filter_some, hinteger]
  case ids =>
    have hrequest := htracks.requestId
    have hmessage := htracks.messageId
    rw [← hvalid.requestId] at hrequest
    rw [← hvalid.messageId] at hmessage
    simp only [StreamEvent.client, hq, hvalid.conversation]
    tauto
  case unfinished =>
    rw [htracks.terminal, hvalid.open_]
    decide
  case first =>
    rintro ⟨hr, hresumed, h⟩
    obtain ⟨hfirst, hzero⟩ := hvalid.first (by rw [htracks.fresh hr, hresumed])
    rw [hstarted] at h
    rcases h with h | h
    · rw [h] at hfirst
      cases hfirst
    · exact h (hvalid.sequence.trans hzero)
  case resumed =>
    rintro ⟨hr, hresumed, h⟩
    have hlater := hvalid.later (by rw [htracks.fresh hr, hresumed])
    rw [hstarted, hlater] at h
    cases h
  case later =>
    rintro ⟨hr, h⟩
    have hlater := hvalid.later (htracks.begun hr).1
    rw [hstarted, hlater] at h
    cases h
  case sequence =>
    cases hr : c.received with
    | true => simp [hexpected, StreamEvent.client]
    | false => simp [hexpected, StreamEvent.client]
  case begun =>
    rintro ⟨hresumed, h⟩
    cases hr : c.received with
    | true =>
        rw [hr, if_pos rfl] at h
        have hbegun := (htracks.begun hr).2
        simp_all
    | false =>
        rw [hr, if_neg (by decide)] at h
        dsimp only at h
        have hfirst := (hvalid.first (by rw [htracks.fresh hr, hresumed])).1
        rw [← hstarted, h] at hfirst
        cases hfirst
  case blames =>
    have hblames := hvalid.blames
    rw [← hvalid.requestId] at hblames
    intro h
    cases (client_blames uuid hblames).symm.trans h

/-- The client after a frame. -/
def Client.next (d : Doubles) (c : Client) (e : ClientEvent) : Client :=
  { c.after d e with eventId := none }

/-- The id of the frame does not survive it. -/
theorem next_eventId (c : Client) (id : List Char) (e : ClientEvent) :
    { c with eventId := some id }.next d e = c.next d e := by
  cases hr : c.received with
  | true => simp [Client.next, Client.after, Client.opened, hr]
  | false => simp [Client.next, Client.after, Client.opened, hr]

/-- After the event both loops are one further. -/
theorem Tracks.next {c : Client} {e : StreamEvent} {request : ChatRequestRecord}
    {conversationId : Nat} {expected : Int} {started terminal : Bool}
    (h : Tracks q uuid c request expected started terminal)
    (hvalid : Validated e request conversationId expected started terminal)
    (hsmall : e.sequenceNo < 2 ^ 53) :
    Tracks q uuid (c.next d (e.client uuid)) request (expected + 1) true
      (terminal || e.body.terminal) := by
  have h0 := contract_nonneg hvalid.contract
  have hsucc : d.succ e.sequenceNo = expected + 1 := by
    rw [d.succ_exact _ h0 hsmall, hvalid.sequence]
  cases hr : c.received with
  | true =>
      have hopened : c.opened (e.client uuid) = c := if_pos hr
      obtain ⟨-, hbegun⟩ := h.begun hr
      unfold Client.next Client.after
      rw [hopened]
      exact
        { requestId := h.requestId
          messageId := h.messageId
          between := ⟨h.between.1, rfl⟩
          expected := fun _ => hsucc
          fresh := fun hf => by
            rw [hr] at hf
            cases hf
          begun := fun _ => ⟨rfl, hbegun⟩
          terminal := by
            dsimp only
            rw [h.terminal, client_terminal] }
  | false =>
      have hopened : c.opened (e.client uuid) = { c with
          started := (e.client uuid).body.isStarted, received := true
          requestId := jsText (uuid e.requestId)
          messageId := jsText (uuid e.messageId) } := by
        rw [Client.opened, hr, if_neg (by decide)]
        rfl
      have hfirst : q.resumed = true ∨ (e.client uuid).body.isStarted = true := by
        rw [client_isStarted]
        cases hresumed : q.resumed with
        | true => exact .inl rfl
        | false => exact .inr (hvalid.first (by rw [h.fresh hr, hresumed])).1
      unfold Client.next Client.after
      rw [hopened]
      exact
        { requestId := .inr (by rw [hvalid.requestId])
          messageId := .inr (by rw [hvalid.messageId])
          between := ⟨h.between.1, rfl⟩
          expected := fun _ => hsucc
          fresh := fun hf => by cases hf
          begun := fun _ => ⟨rfl, hfirst⟩
          terminal := by
            dsimp only
            rw [h.terminal, client_terminal] }

theorem oneLine_of_clean {line : List Char} (h : ∀ c ∈ line, 0x20 ≤ c.toNat) :
    OneLine line := by
  intro c hc
  have hle := h c hc
  by_contra hsep
  simp only [separator, Bool.or_eq_true, beq_iff_eq, Bool.not_eq_false] at hsep
  obtain rfl | rfl := hsep
  · exact absurd hle (by decide)
  · exact absurd hle (by decide)

theorem oneLine_append {xs ys : List Char} (hx : OneLine xs) (hy : OneLine ys) :
    OneLine (xs ++ ys) := by
  intro c hc
  rcases List.mem_append.mp hc with hc | hc
  · exact hx c hc
  · exact hy c hc

theorem lineYields_ok {c c' : Client} {line : List Char} {event : Option ClientEvent}
    (h : consumeLine d q c line = .ok (event, c')) :
    lineYields d q c line = (event.toList, .ok c') := by
  rw [lineYields, h]

/-- A line of the text, then the rest of it. -/
theorem drain_line {c c' : Client} {line rest : List Char} {event : Option ClientEvent}
    (hline : OneLine line) (h : consumeLine d q c line = .ok (event, c')) :
    drain d q c (line ++ '\n' :: rest)
      = (event.toList ++ (drain d q c' rest).1, (drain d q c' rest).2) := by
  rw [drain_some d q (nextLine_lf hline rest), lineYields_ok h]
  rfl

/-- A heartbeat is a comment and a blank line. -/
theorem drain_heartbeat {c : Client} (hc : c.dataLines = [] ∧ c.eventId = none)
    (rest : List Char) :
    drain d q c (": heartbeat\n\n".toList ++ rest) = drain d q c rest := by
  have htext : ": heartbeat\n\n".toList ++ rest
      = ": heartbeat".toList ++ '\n' :: ([] ++ '\n' :: rest) := rfl
  have hcomment : consumeLine d q c ": heartbeat".toList = .ok (none, c) := rfl
  have hblank : consumeLine d q c [] = .ok (none, c) := by
    simp [consumeLine, hc, raiseIf]
  have hempty : OneLine [] := by simp [OneLine]
  rw [htext, drain_line (oneLine_of_clean (List.all_iff_forall_prop.mp (by decide))) hcomment, drain_line hempty hblank]
  simp

/-- A frame is three lines and one event. -/
theorem drain_frame {c : Client} {e : StreamEvent} {request : ChatRequestRecord}
    {conversationId : Nat} {expected : Int} {started terminal : Bool}
    (huuid : ∀ n, uuid n ≠ "") (hq : q.conversationId = jsText (uuid conversationId))
    (htracks : Tracks q uuid c request expected started terminal)
    (hvalid : Validated e request conversationId expected started terminal)
    (hsmall : e.sequenceNo < 2 ^ 53) (rest : List Char) :
    drain d q c (sseFrame uuid e ++ rest)
      = (e.client uuid :: (drain d q (c.next d (e.client uuid)) rest).1,
          (drain d q (c.next d (e.client uuid)) rest).2) := by
  have h0 := contract_nonneg hvalid.contract
  obtain ⟨hdata, hid⟩ := htracks.between
  have htext : sseFrame uuid e ++ rest
      = ("id: ".toList ++ integer e.sequenceNo) ++ '\n'
        :: (("data: ".toList ++ dumps (.obj (e.dump uuid))) ++ '\n' :: ([] ++ '\n' :: rest)) := by
    simp [sseFrame]
  have hline1 : OneLine ("id: ".toList ++ integer e.sequenceNo) := by
    have hreads := (reads_sequence d h0 hsmall).clean
    rw [dumps] at hreads
    exact oneLine_append (oneLine_of_clean (List.all_iff_forall_prop.mp (by decide))) (oneLine_of_clean hreads)
  have hline2 : OneLine ("data: ".toList ++ dumps (.obj (e.dump uuid))) :=
    oneLine_append (oneLine_of_clean (List.all_iff_forall_prop.mp (by decide)))
      (oneLine_of_clean (reads_event d uuid h0 hsmall).clean)
  have hconsume1 : consumeLine d q c ("id: ".toList ++ integer e.sequenceNo)
      = .ok (none, { c with eventId := some (integer e.sequenceNo) }) := by
    show (raiseIf (c.eventId ≠ none) "Duplicate SSE event id" >>= fun _ => _) = _
    rw [hid]
    rfl
  have hconsume2 : consumeLine d q { c with eventId := some (integer e.sequenceNo) }
        ("data: ".toList ++ dumps (.obj (e.dump uuid)))
      = .ok (none, { c with eventId := some (integer e.sequenceNo)
                            dataLines := [dumps (.obj (e.dump uuid))] }) := by
    show Except.ok (none, { c with eventId := some (integer e.sequenceNo)
                                   dataLines := c.dataLines ++ [_] }) = _
    rw [hdata]
    rfl
  have hconsume3 : consumeLine d q { c with eventId := some (integer e.sequenceNo)
                                            dataLines := [dumps (.obj (e.dump uuid))] } []
      = .ok (some (e.client uuid), c.next d (e.client uuid)) := by
    have hclient : ({ c with eventId := some (integer e.sequenceNo), dataLines := [] } : Client)
        = { c with eventId := some (integer e.sequenceNo) } := by
      rw [← hdata]
    have hpayload : ['\n'].intercalate [dumps (.obj (e.dump uuid))]
        = dumps (.obj (e.dump uuid)) := by
      simp [List.intercalate]
    rw [consumeLine, if_neg (by simp)]
    dsimp only
    rw [hclient, hpayload, dispatch_event huuid hq htracks hvalid hsmall, ← next_eventId]
    rfl
  have hblank : OneLine [] := by simp [OneLine]
  rw [htext, drain_line hline1 hconsume1, drain_line hline2 hconsume2,
    drain_line hblank hconsume3]
  rfl

-- ================================================================== body

/-- The events the body writes: those before its admission was lost. -/
def written (items : List SseItem) : List StreamEvent :=
  (items.takeWhile fun i => !i.lost).filterMap (·.event)

/-- Where the client stands after the events. -/
structure Reached (c c' : Client) (events : List StreamEvent) : Prop where
  between : c'.dataLines = [] ∧ c'.eventId = none
  received : c'.received = (c.received || !events.isEmpty)
  terminal : c'.terminal = (c.terminal || events.any (·.body.terminal))

theorem next_received (c : Client) (e : ClientEvent) : (c.next d e).received = true := by
  cases hr : c.received with
  | true => simp [Client.next, Client.after, Client.opened, hr]
  | false => simp [Client.next, Client.after, Client.opened, hr]

theorem next_terminal (c : Client) (e : StreamEvent) :
    (c.next d (e.client uuid)).terminal = (c.terminal || e.body.terminal) := by
  cases hr : c.received with
  | true => simp [Client.next, Client.after, Client.opened, hr, client_terminal]
  | false => simp [Client.next, Client.after, Client.opened, hr, client_terminal]

/-- Whatever the body writes of a valid stream is yielded, event by
event. -/
theorem drain_body {request : ChatRequestRecord} {conversationId : Nat}
    (huuid : ∀ n, uuid n ≠ "") (hq : q.conversationId = jsText (uuid conversationId))
    (items : List SseItem) {c : Client} {expected : Int} {started terminal : Bool}
    (htracks : Tracks q uuid c request expected started terminal)
    (hstream : Streamed request conversationId expected started terminal
      (items.filterMap (·.event)))
    (hsmall : ∀ e ∈ items.filterMap (·.event), e.sequenceNo < 2 ^ 53) :
    ∃ c', drain d q c (sseBody uuid items).1
        = ((written items).map (·.client uuid), .ok (c', []))
      ∧ Reached c c' (written items) := by
  induction items generalizing c expected started terminal with
  | nil =>
      refine ⟨c, drain_none d q rfl, htracks.between, ?_, ?_⟩
      · simp [written]
      · simp [written]
  | cons item items ih =>
      obtain ⟨lost, event⟩ := item
      cases lost with
      | true =>
          refine ⟨c, drain_none d q rfl, htracks.between, ?_, ?_⟩
          · simp [written]
          · simp [written]
      | false =>
          cases event with
          | none =>
              obtain ⟨c', hdrain, hreached⟩ := ih htracks hstream hsmall
              exact ⟨c', (drain_heartbeat htracks.between _).trans hdrain, hreached⟩
          | some e =>
              have hvalid := validateEvent_ok hstream.1
              have hlt := hsmall e List.mem_cons_self
              obtain ⟨c', hdrain, hreached⟩ := ih (htracks.next hvalid hlt) hstream.2
                (fun e he => hsmall e (List.mem_cons_of_mem _ he))
              have hbody : (sseBody uuid (⟨false, some e⟩ :: items)).1
                  = sseFrame uuid e ++ (sseBody uuid items).1 := by
                rw [sseBody, if_neg (by simp)]
                dsimp only
                rw [if_neg (by have := contract_nonneg hvalid.contract; omega)]
              refine ⟨c', ?_, hreached.between, ?_, ?_⟩
              · rw [hbody, drain_frame huuid hq htracks hvalid hlt, hdrain]
                rfl
              · rw [hreached.received, next_received]
                simp [written]
              · rw [hreached.terminal, next_terminal, Bool.or_assoc]
                simp [written]

/-- How the client ends after a stream. -/
def streamEnd (events : List StreamEvent) : Option String :=
  if events = [] then some "Empty stream"
  else if events.any (·.body.terminal) = true then none
  else some "Stream ended before terminal event"

theorem finishStream_reached {c c' : Client} {events : List StreamEvent} {bomSeen : Bool}
    (hc : c.received = false ∧ c.terminal = false) (h : Reached c c' events) :
    finishStream d q { decoder := .start, bomSeen } c' [] = ([], streamEnd events) := by
  have hshape : finishStream d q { decoder := .start, bomSeen } c' []
      = ([], if ([] : List Char) ≠ [] ∨ c'.dataLines ≠ [] ∨ c'.eventId ≠ none then
          some "SSE stream ended with an incomplete event frame"
        else if c'.received = false then some "Empty stream"
        else if c'.terminal = false then some "Stream ended before terminal event"
        else none) := rfl
  have hreceived : c'.received = false ↔ events = [] := by
    rw [h.received, hc.1]
    simp
  rw [hshape, if_neg (by simp [h.between]), h.terminal, hc.2, Bool.false_or, streamEnd]
  by_cases hnil : events = []
  · rw [if_pos (hreceived.mpr hnil), if_pos hnil]
  · rw [if_neg (fun hr => hnil (hreceived.mp hr)), if_neg hnil]
    cases events.any fun x => x.body.terminal with
    | true => rfl
    | false => rfl

/-- The body starts with an id or a comment. -/
theorem sseBody_head (items : List SseItem) :
    (sseBody uuid items).1.head? ≠ some byteOrderMark := by
  cases items with
  | nil => simp [sseBody]
  | cons item items =>
      obtain ⟨lost, event⟩ := item
      cases lost with
      | true => simp [sseBody]
      | false =>
          cases event with
          | none =>
              show some ':' ≠ some byteOrderMark
              decide
          | some e =>
              rw [sseBody, if_neg (by simp)]
              dsimp only
              split
              · simp
              · show some 'i' ≠ some byteOrderMark
                decide

/-- Before the first chunk. -/
theorem start_tracks {request : ChatRequestRecord} {conversationId : JsString}
    {cursor : Option Int} {requestId messageId : JsString}
    (hcursor : -1 ≤ cursor.getD (-1))
    (hrequest : requestId = [] ∨ requestId = jsText (uuid request.requestId))
    (hmessage : messageId = [] ∨ messageId = jsText (uuid request.messageId)) :
    Tracks { conversationId, resumeCursor := cursor } uuid
      (Client.start d { conversationId, resumeCursor := cursor } requestId messageId)
      request (cursor.getD (-1) + 1) (0 ≤ cursor.getD (-1)) false := by
  have hresumed : SseRequest.resumed { conversationId, resumeCursor := cursor }
      = decide (0 ≤ cursor.getD (-1)) := by
    cases cursor with
    | none => rfl
    | some n => rfl
  exact
    { requestId := hrequest
      messageId := hmessage
      between := ⟨rfl, rfl⟩
      expected := by
        intro hle
        simp only [Client.start, hresumed, decide_eq_true_eq]
        split
        · next h0 => exact d.succ_exact _ h0 (by omega)
        · omega
      fresh := fun _ => hresumed.symm
      begun := fun h => by cases h
      terminal := rfl }

-- ================================================================ reader

theorem streamed_snoc {request : ChatRequestRecord} {conversationId : Nat}
    {expected : Int} {started terminal : Bool} {events : List StreamEvent}
    {e : StreamEvent}
    (h : Streamed request conversationId expected started terminal events)
    (hvalid : validateEvent e request conversationId (expected + events.length)
      (!(started || !events.isEmpty)) (terminal || events.any (·.body.terminal)) = .ok ()) :
    Streamed request conversationId expected started terminal (events ++ [e]) := by
  induction events generalizing expected started terminal with
  | nil => exact ⟨by simpa using hvalid, trivial⟩
  | cons e' events ih =>
      refine ⟨h.1, ih h.2 ?_⟩
      simp only [List.length_cons, List.isEmpty_cons, Bool.not_false, Bool.or_true,
        List.any_cons, ← Bool.or_assoc] at hvalid
      have hplace : expected + 1 + (events.length : Int)
          = expected + ((events.length + 1 : Nat) : Int) := by
        push_cast
        omega
      rw [hplace, Bool.true_or]
      exact hvalid

/-- A generator has yielded a valid stream, and its variables say how far
it has come. -/
structure Streaming (p : Reader) : Prop where
  streamed : Streamed p.request p.ask.conversationId (p.ask.normalizedCursor + 1)
    (0 ≤ p.ask.normalizedCursor) false p.yielded
  expected : p.expected = p.ask.normalizedCursor + 1 + p.yielded.length
  started : p.started = (decide (0 ≤ p.ask.normalizedCursor) || !p.yielded.isEmpty)
  terminal : p.terminal = p.yielded.any (·.body.terminal)

theorem openStream_streaming {service : StreamService} {now heartbeatNow : Int}
    {subscribes : Bool} {a : StreamAsk} {s : Store} {p : Reader}
    (h : openStream service now heartbeatNow subscribes a s = .ok p) : Streaming p := by
  simp only [openStream, bind_eq_ok, raiseIf_eq_ok, pure_eq_ok] at h
  obtain ⟨-, -, request, -, -, -, -, -, rfl⟩ := h
  exact
    { streamed := trivial
      expected := by simp
      started := by simp
      terminal := rfl }

theorem Streaming.wait {p : Reader} (h : Streaming p) (env : ReaderEnv) (time : Int) :
    Streaming (p.wait env time) := by
  unfold Reader.wait
  split
  · exact { h with }
  · exact { h with }

theorem Streaming.pause {p : Reader} (h : Streaming p) (env : ReaderEnv) :
    Streaming (p.pause env) := by
  unfold Reader.pause
  dsimp only
  split
  · exact { h with }
  split
  · split
    · exact { h with }
    · exact h.wait env _
  · exact h.wait env _

theorem Streaming.step {p : Reader} (h : Streaming p) (env : ReaderEnv) (s : Store) :
    Streaming (readerStep env p s) := by
  unfold readerStep
  split
  · split
    · exact { h with }
    · exact { h with }
  · exact { h with }
  · next row rows empty =>
      split
      · exact { h with }
      · next hvalid =>
          rw [h.expected, h.started, h.terminal] at hvalid
          exact
            { streamed := streamed_snoc h.streamed (by rw [Bool.false_or]; exact hvalid)
              expected := by
                dsimp only
                rw [h.expected, List.length_append, List.length_singleton]
                push_cast
                omega
              started := by simp
              terminal := by
                dsimp only
                rw [h.terminal, List.any_append]
                simp }
  · split
    · exact { h with }
    · split
      · exact { h with }
      · split
        · exact { h with }
        · exact h.pause env
  · exact h
  · exact h
  · exact h

/-- What the service streams is what the client can read: every generator
yields a valid stream, whatever is written between its steps. -/
theorem reader_streamed {service : StreamService} {now heartbeatNow : Int}
    {subscribes : Bool} {a : StreamAsk} {s : Store} {p : Reader}
    (h : openStream service now heartbeatNow subscribes a s = .ok p)
    (steps : List (ReaderEnv × Store)) :
    Streaming (steps.foldl (fun p step => readerStep step.1 p step.2) p) := by
  have hstreaming := openStream_streaming h
  clear h
  induction steps generalizing p with
  | nil => exact hstreaming
  | cons step steps ih => exact ih (hstreaming.step step.1 step.2)

-- =============================================================== results

/-- The web client reads what the service streamed. However the bytes of
the body are cut into chunks, and wherever heartbeats stand, the client
yields the written events in order. And for every response at all, the
events and the error are the same for every way of cutting it. -/
theorem sse_faithful (d : Doubles) (uuid : Nat → String) (huuid : ∀ n, uuid n ≠ "") :
    (∀ (request : ChatRequestRecord) (conversationId : Nat) (cursor : Option Int)
      (items : List SseItem) (requestId messageId : JsString) (chunks : List (List UInt8)),
      -1 ≤ cursor.getD (-1) →
      Streamed request conversationId (cursor.getD (-1) + 1) (0 ≤ cursor.getD (-1)) false
        (items.filterMap (·.event)) →
      (∀ e ∈ items.filterMap (·.event), e.sequenceNo < 2 ^ 53) →
      (requestId = [] ∨ requestId = jsText (uuid request.requestId)) →
      (messageId = [] ∨ messageId = jsText (uuid request.messageId)) →
      chunks.flatten = encode (sseBody uuid items).1 →
      parseSse d { conversationId := jsText (uuid conversationId), resumeCursor := cursor }
          requestId messageId chunks
        = ((written items).map (·.client uuid), streamEnd (written items)))
    ∧ (∀ (q : SseRequest) (requestId messageId : JsString)
        (chunks chunks' : List (List UInt8)), chunks.flatten = chunks'.flatten →
      parseSse d q requestId messageId chunks = parseSse d q requestId messageId chunks') := by
  constructor
  · intro request conversationId cursor items requestId messageId chunks hcursor hstream
      hsmall hrequest hmessage hchunks
    have hhead : (sseBody uuid items).1.head? ≠ some byteOrderMark := sseBody_head items
    obtain ⟨bomSeen, hdecode⟩ := TextDecoder.decode_encode hhead
    have htracks : Tracks { conversationId := jsText (uuid conversationId)
                            resumeCursor := cursor } uuid
        (Client.start d _ requestId messageId) request (cursor.getD (-1) + 1)
        (0 ≤ cursor.getD (-1)) false :=
      start_tracks hcursor hrequest hmessage
    obtain ⟨c', hdrain, hreached⟩ := drain_body huuid rfl items htracks hstream hsmall
    rw [parseSse_eq, hchunks, hdecode, readText, hdrain]
    dsimp only
    rw [finishStream_reached ⟨rfl, rfl⟩ hreached, List.append_nil]
  · intro q requestId messageId chunks chunks' h
    rw [parseSse_eq, parseSse_eq, h]

/-- The arithmetic of the integers, which doubles share below `2^53`. -/
def sampleDoubles : Doubles where
  read literal :=
    if literal.all Char.isDigit = true then .integer (Nat.ofDigitChars 10 literal 0)
    else .other literal
  succ n := n + 1
  read_exact n _ := by
    have hall : (Nat.toDigits 10 n).all Char.isDigit = true :=
      List.all_eq_true.mpr fun c hc => isDigit_toDigits hc
    rw [if_pos hall, Nat.ofDigitChars_ten_toDigits]
  succ_exact _ _ _ := rfl

def sampleUuid (n : Nat) : String :=
  "00000000-0000-4000-8000-" ++ String.ofList (Nat.toDigits 16 (16 ^ 11 + n))

def sampleEvent (n : Int) (body : EventBody) : StreamEvent :=
  { tenantId := 1, inferenceRequestId := 1, sequenceNo := n, body, requestId := 7
    conversationId := 3, messageId := 5, createdAt := 0 }

def sampleItems : List SseItem :=
  [⟨false, some (sampleEvent 0 .started)⟩, ⟨false, none⟩,
   ⟨false, some (sampleEvent 1 (.delta "naïve \"€\"\r\n"))⟩,
   ⟨false, some (sampleEvent 2 (.failed
      { code := "PROVIDER_TIMEOUT", message := "late", requestId := 7, retryable := true }))⟩]

/-- A short stream with a heartbeat, cut inside a character. -/
theorem sse_faithful_sample :
    parseSse sampleDoubles { conversationId := jsText (sampleUuid 3), resumeCursor := none }
        [] [] [(encode (sseBody sampleUuid sampleItems).1).take 440,
          (encode (sseBody sampleUuid sampleItems).1).drop 440]
      = ([sampleEvent 0 .started, sampleEvent 1 (.delta "naïve \"€\"\r\n"),
          sampleEvent 2 (.failed { code := "PROVIDER_TIMEOUT", message := "late"
                                   requestId := 7, retryable := true })].map
            (·.client sampleUuid), none) := by
  have huuid : ∀ n, sampleUuid n ≠ "" := by
    intro n h
    unfold sampleUuid at h
    generalize String.ofList _ = digits at h
    simp at h
  exact (sse_faithful sampleDoubles sampleUuid huuid).1
    { requestDbId := 1, requestId := 7, conversationId := 3, messageId := 5, tenantId := 1
      status := .failed, lastEventSequence := 2 }
    3 none sampleItems [] [] _ (by decide) ⟨rfl, rfl, rfl, trivial⟩ (by decide)
    (.inl rfl) (.inl rfl) (by simp)

end Mosaic.Chat
