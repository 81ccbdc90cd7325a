/-
The message codec, over every envelope and every body.

# What is written is read

An envelope's body is a JSON text of six fields, short and plain, and
`from_body` gives the envelope back (`fromBody_body`).

# What is not an envelope

A consumer rejects a body when `from_body` raises `ValueError` and
redelivers it on any other exception. Two kinds of body get there: one
whose `aggregate_version` is not an integer, for which the code raises
`TypeError` outside of its handler, and one nested deeper than the
interpreter recurses. `requeued_iff` says that these are all.
-/
import Mosaic.Messaging.Envelope

namespace Mosaic.Messaging

open Lib
open Lib.JsonText (JsValue JsNumber jsString)
open Outbox (eventTypeValid supportedRoutingKey)

variable {py : Interpreter} {α β : Type}

-- ============================================================= exceptions

/-- The outcome is an exception the consumers retry on. -/
def Retried (x : Except Raised α) : Prop :=
  x = .error .recursionError ∨ ∃ message, x = .error (.typeError message)

theorem requeued_of_retried {body : List UInt8} :
    deliver py body = .requeued ↔ Retried (fromBody py body) := by
  unfold deliver Retried
  cases fromBody py body with
  | ok e => simp
  | error r => cases r <;> simp

theorem retried_bind {x : Except Raised α} {f : α → Except Raised β} :
    Retried (x >>= f) ↔ Retried x ∨ ∃ a, x = .ok a ∧ Retried (f a) := by
  cases x with
  | ok a => simp [Retried, bind, Except.bind]
  | error r => simp [Retried, bind, Except.bind]

theorem not_retried_ok (a : α) : ¬ Retried (.ok a : Except Raised α) := by
  simp [Retried]

theorem not_retried_value (message : String) :
    ¬ Retried (.error (.valueError message) : Except Raised α) := by
  simp [Retried]

theorem not_retried_raiseIf {c : Prop} [Decidable c] (message : String) :
    ¬ Retried (raiseIf c (Raised.valueError message)) := by
  unfold raiseIf
  split
  · exact not_retried_value message
  · exact not_retried_ok ()

-- ============================================================== conversion

theorem str_eq_ok {v : JsValue} {s : List Nat} :
    str py v = .ok s ↔ tooDeep py v = false ∧ strText py v = s := by
  simp only [str, bind_eq_ok, raiseIf_eq_ok, pure_eq_ok, Bool.not_eq_true]
  constructor
  · rintro ⟨-, hdeep, hs⟩
    exact ⟨hdeep, hs⟩
  · rintro ⟨hdeep, hs⟩
    exact ⟨(), hdeep, hs⟩

theorem retried_str {v : JsValue} : Retried (str py v) ↔ tooDeep py v = true := by
  by_cases hdeep : tooDeep py v = true
  · simp [str, raiseIf, hdeep, Retried, bind, Except.bind]
  · simp [str, raiseIf, hdeep, Retried, bind, Except.bind, pure, Except.pure]

theorem uuid_eq_ok {s : List Nat} {u : UUID} :
    uuid py s = .ok u ↔ Uuid.parse py.decimals s = some u.int := by
  unfold uuid
  cases hparse : Uuid.parse py.decimals s with
  | none => simp
  | some n =>
      simp only [dif_pos (Uuid.parse_lt hparse), Except.ok.injEq, Option.some.injEq]
      constructor
      · rintro rfl
        rfl
      · rintro rfl
        rfl

theorem not_retried_uuid (s : List Nat) : ¬ Retried (uuid py s) := by
  unfold uuid
  split
  · split
    · exact not_retried_ok _
    · exact not_retried_value _
  · exact not_retried_value _

theorem not_retried_postInit (eventId tenantId : UUID) (aggregateType : List Nat)
    (aggregateId : UUID) (eventType : List Nat) (version : Int) :
    ¬ Retried (postInit eventId tenantId aggregateType aggregateId eventType version) := by
  unfold postInit
  split
  · split
    · exact not_retried_ok _
    · exact not_retried_value _
  · exact not_retried_value _

/-- The fields in the order `cls(...)` converts them, and which of them go
through `UUID`. -/
def conversions : List (String × Bool) :=
  [("event_id", true), ("tenant_id", true), ("aggregate_type", false),
    ("aggregate_id", true), ("event_type", false)]

/-- The first field that is not converted is one `str` cannot descend
into. -/
def overflows (py : Interpreter) (fields : List (List UInt16 × JsValue)) :
    List (String × Bool) → Bool
  | [] => false
  | (key, isUuid) :: rest =>
      tooDeep py (field fields key)
        || (!isUuid || (Uuid.parse py.decimals (strText py (field fields key))).isSome)
          && overflows py fields rest

/-- One conversion through `str`. -/
theorem retried_str_bind {v : JsValue} {f : List Nat → Except Raised α} :
    Retried (str py v >>= f)
      ↔ tooDeep py v = true ∨ (tooDeep py v = false ∧ Retried (f (strText py v))) := by
  rw [retried_bind, retried_str]
  constructor
  · rintro (hdeep | ⟨s, hs, hf⟩)
    · exact Or.inl hdeep
    · obtain ⟨hdeep, rfl⟩ := str_eq_ok.mp hs
      exact Or.inr ⟨hdeep, hf⟩
  · rintro (hdeep | ⟨hdeep, hf⟩)
    · exact Or.inl hdeep
    · exact Or.inr ⟨_, str_eq_ok.mpr ⟨hdeep, rfl⟩, hf⟩

/-- One conversion through `UUID`; what follows does not depend on its
result. -/
theorem retried_uuid_bind {s : List Nat} {f : UUID → Except Raised α} {P : Prop}
    (hf : ∀ u, Retried (f u) ↔ P) :
    Retried (uuid py s >>= f) ↔ (Uuid.parse py.decimals s).isSome = true ∧ P := by
  rw [retried_bind]
  constructor
  · rintro (hu | ⟨u, hu, hr⟩)
    · exact absurd hu (not_retried_uuid s)
    · exact ⟨by rw [uuid_eq_ok.mp hu]; rfl, (hf u).mp hr⟩
  · rintro ⟨hsome, hp⟩
    obtain ⟨n, hn⟩ := Option.isSome_iff_exists.mp hsome
    exact Or.inr ⟨⟨n, Uuid.parse_lt hn⟩, uuid_eq_ok.mpr hn, (hf _).mpr hp⟩

/-- A field that goes through `UUID`, before the ones that follow it. -/
theorem retried_uuid_field {v : JsValue} {f : UUID → Except Raised α} {P : Prop}
    (hf : ∀ u, Retried (f u) ↔ P) :
    Retried (str py v >>= fun s => uuid py s >>= f)
      ↔ tooDeep py v = true
        ∨ ((Uuid.parse py.decimals (strText py v)).isSome = true ∧ P) := by
  rw [retried_str_bind, retried_uuid_bind hf]
  cases tooDeep py v <;> simp

/-- A field that is text. -/
theorem retried_text_field {v : JsValue} {f : List Nat → Except Raised α} {P : Prop}
    (hf : ∀ s, Retried (f s) ↔ P) :
    Retried (str py v >>= f) ↔ tooDeep py v = true ∨ P := by
  rw [retried_str_bind, hf]
  cases tooDeep py v <;> simp

theorem retried_construct {fields : List (List UInt16 × JsValue)} {version : Int} :
    Retried (construct py fields version) ↔ overflows py fields conversions = true := by
  unfold construct
  rw [retried_uuid_field fun eventId => retried_uuid_field fun tenantId =>
    retried_text_field fun aggregateType => retried_uuid_field fun aggregateId =>
    retried_text_field fun eventType =>
      iff_false_intro (not_retried_postInit eventId tenantId aggregateType aggregateId
        eventType version)]
  simp [overflows, conversions]

-- ============================================================== bad bodies

/-- Decoding the body meets neither the recursion limit nor a version that
is not an integer. -/
def Clean (py : Interpreter) (body : List UInt8) : Prop :=
  ∀ text, body ≠ [] → body.length ≤ 4096 → decodeUtf8 body = some text →
    PyJson.loads py.recursionLimit text ≠ .error .recursion
      ∧ ∀ fields, PyJson.loads py.recursionLimit text = .ok (.object fields) →
        hasRequired fields = true →
        (integerVersion fields).isSome = true ∧ overflows py fields conversions = false

/-- The part of `from_body` after the JSON is read. -/
theorem retried_fields {fields : List (List UInt16 × JsValue)} :
    Retried (do
        raiseIf (hasRequired fields = false)
          (.valueError "event envelope fields are invalid")
        let version ← orRaise (integerVersion fields)
          (.typeError "aggregate_version is invalid")
        construct py fields version)
      ↔ hasRequired fields = true
        ∧ (integerVersion fields = none ∨ overflows py fields conversions = true) := by
  rw [retried_bind]
  constructor
  · rintro (hr | ⟨_, hkeys, hr⟩)
    · exact absurd hr (not_retried_raiseIf _)
    · rw [raiseIf_eq_ok, Bool.not_eq_false] at hkeys
      refine ⟨hkeys, ?_⟩
      rw [retried_bind] at hr
      obtain hr | ⟨version, -, hr⟩ := hr
      · cases hversion : integerVersion fields with
        | none => exact Or.inl rfl
        | some version =>
            rw [hversion] at hr
            exact absurd hr (not_retried_ok version)
      · exact Or.inr (retried_construct.mp hr)
  · rintro ⟨hkeys, hslip⟩
    refine Or.inr ⟨(), by rw [raiseIf_eq_ok, hkeys]; decide, ?_⟩
    rw [retried_bind]
    cases hversion : integerVersion fields with
    | none => exact Or.inl (Or.inr ⟨_, rfl⟩)
    | some version =>
        rw [hversion] at hslip
        obtain hnone | hover := hslip
        · cases hnone
        · exact Or.inr ⟨version, rfl, retried_construct.mpr hover⟩

theorem requeued_iff (py : Interpreter) (body : List UInt8) :
    deliver py body ≠ .requeued ↔ Clean py body := by
  rw [ne_eq, requeued_of_retried, ← not_iff_not, not_not]
  unfold fromBody
  rw [retried_bind]
  constructor
  · rintro (hr | ⟨_, hsize, hr⟩) hclean
    · exact not_retried_raiseIf _ hr
    · rw [raiseIf_eq_ok, not_or, not_lt] at hsize
      rw [retried_bind] at hr
      cases htext : decodeUtf8 body with
      | none =>
          rw [htext] at hr
          obtain hr | ⟨text, htext, -⟩ := hr
          · exact not_retried_value _ hr
          · cases htext
      | some text =>
          rw [htext] at hr
          obtain hr | ⟨text', htext', hr⟩ := hr
          · exact not_retried_ok _ hr
          · obtain rfl := Except.ok.inj htext'
            obtain ⟨hdepth, hfields⟩ := hclean text hsize.1 hsize.2 htext
            split at hr
            · next hloads => exact hdepth hloads
            · exact not_retried_value _ hr
            · next fields hloads =>
                obtain ⟨hkeys, hslip⟩ := retried_fields.mp hr
                obtain ⟨hversion, hover⟩ := hfields fields hloads hkeys
                obtain hnone | hdeep := hslip
                · rw [hnone] at hversion
                  cases hversion
                · rw [hover] at hdeep
                  cases hdeep
            · exact not_retried_value _ hr
  · intro hclean
    unfold Clean at hclean
    push Not at hclean
    obtain ⟨text, hne, hsize, htext, hslip⟩ := hclean
    refine Or.inr ⟨(), by rw [raiseIf_eq_ok, not_or, not_lt]; exact ⟨hne, hsize⟩, ?_⟩
    rw [retried_bind, htext]
    refine Or.inr ⟨text, rfl, ?_⟩
    by_cases hdepth : PyJson.loads py.recursionLimit text = .error .recursion
    · rw [hdepth]
      exact Or.inl rfl
    · obtain ⟨fields, hloads, hkeys, hslip⟩ := hslip hdepth
      rw [hloads]
      refine retried_fields.mpr ⟨hkeys, ?_⟩
      by_cases hversion : (integerVersion fields).isSome = true
      · exact Or.inr (by simpa using hslip hversion)
      · exact Or.inl (by simpa using hversion)

-- ============================================================ plain texts

/-- A character JSON writes as itself, in one byte. -/
def Plain (c : Char) : Prop :=
  0x20 ≤ c.toNat ∧ c.toNat < 0x80 ∧ c ≠ '"' ∧ c ≠ '\\'

instance (c : Char) : Decidable (Plain c) := by
  unfold Plain
  infer_instance

theorem escape_plain {c : Char} (h : Plain c) : JsonText.escape c = [c] := by
  obtain ⟨hlow, -, hquote, hback⟩ := h
  have hne : ∀ d : Char, d.toNat < 0x20 → c ≠ d := by
    rintro d hd rfl
    omega
  unfold JsonText.escape
  rw [if_neg hquote, if_neg hback, if_neg (hne '\n' (by decide)), if_neg (hne '\r' (by decide)),
    if_neg (hne '\t' (by decide)), if_neg (by omega), if_neg (by omega), if_neg (by omega)]

theorem quote_plain {s : String} (h : ∀ c ∈ s.toList, Plain c) :
    JsonText.quote s = '"' :: s.toList ++ ['"'] := by
  have hbody : s.toList.flatMap JsonText.escape = s.toList := by
    have : ∀ l : List Char, (∀ c ∈ l, Plain c) → l.flatMap JsonText.escape = l := by
      intro l hl
      induction l with
      | nil => rfl
      | cons c l ih =>
          rw [List.flatMap_cons, escape_plain (hl c List.mem_cons_self),
            ih fun d hd => hl d (List.mem_cons_of_mem c hd)]
          rfl
    exact this _ h
  rw [JsonText.quote, hbody]

/-- A text of ASCII characters, no longer than `n`. -/
structure Short (text : List Char) (n : Nat) : Prop where
  length : text.length ≤ n
  ascii : ∀ c ∈ text, c.toNat < 0x80

theorem Short.append {text text' : List Char} {n n' : Nat} (h : Short text n)
    (h' : Short text' n') : Short (text ++ text') (n + n') where
  length := by
    have := h.length
    have := h'.length
    rw [List.length_append]
    omega
  ascii := by
    intro c hc
    rcases List.mem_append.mp hc with hc | hc
    · exact h.ascii c hc
    · exact h'.ascii c hc

theorem Short.cons {text : List Char} {n : Nat} {c : Char} (h : Short text n)
    (hc : c.toNat < 0x80) : Short (c :: text) (n + 1) where
  length := Nat.succ_le_succ h.length
  ascii := by
    intro d hd
    rcases List.mem_cons.mp hd with rfl | hd
    · exact hc
    · exact h.ascii d hd

/-- ASCII is encoded byte for byte. -/
theorem Short.encode {text : List Char} {n : Nat} (h : Short text n) :
    (Utf8.encode text).length ≤ n := by
  have hbytes : ∀ l : List Char, (∀ c ∈ l, c.toNat < 0x80) →
      (l.flatMap String.utf8EncodeChar).length = l.length := by
    intro l hl
    induction l with
    | nil => rfl
    | cons c l ih =>
        have hsize : c.utf8Size = 1 := by
          have hc : c.val.toNat < 0x80 := hl c List.mem_cons_self
          unfold Char.utf8Size
          exact if_pos (UInt32.le_iff_toNat_le.mpr (by
            show c.val.toNat ≤ 0x7F
            omega))
        rw [List.flatMap_cons, List.length_append, String.length_utf8EncodeChar, hsize,
          ih fun d hd => hl d (List.mem_cons_of_mem c hd), List.length_cons]
        omega
  rw [Utf8.encode, hbytes text h.ascii]
  exact h.length

theorem short_quote {s : String} {n : Nat} (h : ∀ c ∈ s.toList, Plain c)
    (hn : s.toList.length ≤ n) : Short (JsonText.quote s) (n + 2) := by
  rw [quote_plain h]
  refine (Short.cons (n := n + 1) ?_ (by decide))
  exact Short.append ⟨hn, fun c hc => (h c hc).2.1⟩
    ⟨le_rfl, List.all_iff_forall_prop.mp (by decide)⟩

theorem plain_uuid (n : Nat) : ∀ c ∈ (Uuid.text n).toList, Plain c := by
  intro c hc
  obtain rfl | ⟨d, hd, rfl⟩ := Uuid.mem_text hc
  · decide
  · interval_cases d <;> decide

theorem length_uuid (n : Nat) : (Uuid.text n).toList.length = 36 := by
  simp [Uuid.text, Uuid.hex]

/-- The characters of a type name. -/
theorem plain_type {s : String} (h : eventTypeValid s = true) :
    (∀ c ∈ s.toList, Plain c) ∧ s.toList.length ≤ 128 := by
  have hletter : ∀ c, Outbox.lowerLetter c = true → Plain c := by
    intro c hc
    simp only [Outbox.lowerLetter, Bool.and_eq_true, decide_eq_true_eq] at hc
    have h₁ : 'a'.toNat ≤ c.toNat := hc.1
    have h₂ : c.toNat ≤ 'z'.toNat := hc.2
    have ha : 'a'.toNat = 97 := rfl
    have hz : 'z'.toNat = 122 := rfl
    refine ⟨by omega, by omega, ?_, ?_⟩
    · rintro rfl
      exact absurd h₁ (by decide)
    · rintro rfl
      exact absurd h₁ (by decide)
  have hdigit : ∀ c, Outbox.digit c = true → Plain c := by
    intro c hc
    simp only [Outbox.digit, Bool.and_eq_true, decide_eq_true_eq] at hc
    have h₁ : '0'.toNat ≤ c.toNat := hc.1
    have h₂ : c.toNat ≤ '9'.toNat := hc.2
    have ha : '0'.toNat = 48 := rfl
    have hz : '9'.toNat = 57 := rfl
    refine ⟨by omega, by omega, ?_, ?_⟩
    · rintro rfl
      exact absurd h₁ (by decide)
    · rintro rfl
      exact absurd h₂ (by decide)
  unfold eventTypeValid at h
  split at h
  · cases h
  · next c cs hcs =>
      simp only [Bool.and_eq_true, decide_eq_true_eq, List.all_eq_true, Bool.or_eq_true,
        beq_iff_eq] at h
      obtain ⟨⟨⟨hc, -⟩, hlength⟩, hall⟩ := h
      rw [hcs]
      refine ⟨fun d hd => ?_, by simp only [List.length_cons]; omega⟩
      rcases List.mem_cons.mp hd with rfl | hd
      · exact hletter d hc
      · obtain (((hd | hd) | rfl) | rfl) | rfl := hall d hd
        · exact hletter d hd
        · exact hdigit d hd
        · decide
        · decide
        · decide

-- ============================================================= round trip

theorem decodeUtf8_encode (text : List Char) : decodeUtf8 (Utf8.encode text) = some text := by
  simp [decodeUtf8, Utf8.Decoder.feed_encode]

/-- The characters of a plain text, written and decoded. -/
theorem points_plain {l : List Char} (h : ∀ c ∈ l, Plain c) :
    PyJson.points (jsString l) = l.map Char.toNat := by
  have hunits : jsString l = l.map fun c => UInt16.ofNat c.toNat := by
    unfold jsString
    induction l with
    | nil => rfl
    | cons c l ih =>
        have hc := (h c List.mem_cons_self).2.1
        rw [List.flatMap_cons, ih fun d hd => h d (List.mem_cons_of_mem c hd), JsonText.units,
          if_pos (by omega)]
        rfl
  have hpoints : ∀ us : List UInt16, (∀ u ∈ us, u.toNat < 0xD800) →
      PyJson.points us = us.map UInt16.toNat := by
    intro us hus
    fun_induction PyJson.points us with
    | case1 => rfl
    | case2 u => rfl
    | case3 u v rest hpair ih =>
        have := hus u List.mem_cons_self
        omega
    | case4 u v rest hpair ih =>
        rw [ih fun w hw => hus w (List.mem_cons_of_mem u hw)]
        rfl
  have hsmall : ∀ c ∈ l, (UInt16.ofNat c.toNat).toNat = c.toNat := by
    intro c hc
    have := (h c hc).2.1
    rw [UInt16.toNat_ofNat']
    omega
  rw [hunits, hpoints, List.map_map]
  · exact List.map_congr_left hsmall
  · intro u hu
    obtain ⟨c, hc, rfl⟩ := List.mem_map.mp hu
    have := (h c hc).2.1
    rw [hsmall c hc]
    omega

theorem charText_codes (s : String) : charText (Uuid.codes s) = some s := by
  have hvalid : (Uuid.codes s).all (fun c => decide c.isValidChar) = true := by
    refine List.all_eq_true.mpr fun c hc => ?_
    obtain ⟨x, -, rfl⟩ := List.mem_map.mp hc
    exact decide_eq_true (show x.toNat.isValidChar from x.valid)
  have hchars : (Uuid.codes s).map Char.ofNat = s.toList := by
    rw [Uuid.codes, List.map_map]
    exact List.map_id'' (fun c => Char.ofNat_toNat c) _
  rw [charText, if_pos hvalid, hchars, String.ofList_toList]

/-- The values of the fields of a body. -/
def EventEnvelope.values (e : EventEnvelope) : List JsValue :=
  [.string (jsString (Uuid.text e.aggregateId.int).toList),
   .string (jsString e.aggregateType.toList), .number (.integer e.aggregateVersion),
   .string (jsString (Uuid.text e.eventId.int).toList),
   .string (jsString e.eventType.toList),
   .string (jsString (Uuid.text e.tenantId.int).toList)]

/-- The fields as they are decoded. -/
def EventEnvelope.decoded (e : EventEnvelope) : List (List UInt16 × JsValue) :=
  [(jsString "aggregate_id".toList, .string (jsString (Uuid.text e.aggregateId.int).toList)),
   (jsString "aggregate_type".toList, .string (jsString e.aggregateType.toList)),
   (jsString "aggregate_version".toList, .number (.integer e.aggregateVersion)),
   (jsString "event_id".toList, .string (jsString (Uuid.text e.eventId.int).toList)),
   (jsString "event_type".toList, .string (jsString e.eventType.toList)),
   (jsString "tenant_id".toList, .string (jsString (Uuid.text e.tenantId.int).toList))]

/-- A body is read field by field. -/
theorem reads_body (e : EventEnvelope) :
    JsonText.Reads PyJson.number (JsonText.dumps (.obj e.fields))
      (.object e.decoded) := by
  obtain ⟨n, hn⟩ := Int.eq_ofNat_of_zero_le (show 0 ≤ e.aggregateVersion by
    have := e.versionOk
    omega)
  show JsonText.Reads PyJson.number _ (.object (JsonText.readFields e.fields e.values))
  refine JsonText.reads_object (List.cons_ne_nil _ _) ?_
  refine .cons (JsonText.reads_string _) (.cons (JsonText.reads_string _) (.cons ?_
    (.cons (JsonText.reads_string _) (.cons (JsonText.reads_string _)
      (.cons (JsonText.reads_string _) .nil)))))
  have hread : JsonText.Reads PyJson.number (JsonText.dumps (.int n))
      (.number (PyJson.number (Nat.toDigits 10 n))) := JsonText.reads_nat n
  rw [PyJson.number_nat] at hread
  show JsonText.Reads PyJson.number (JsonText.dumps (.int e.aggregateVersion))
    (.number (.integer e.aggregateVersion))
  rw [hn]
  exact hread

/-- Fields with short names and short values make a short text. -/
theorem short_dumpsFields {fields : List (String × Json)}
    (h : ∀ f ∈ fields, (∀ c ∈ f.1.toList, Plain c) ∧ f.1.toList.length ≤ 20
      ∧ Short (JsonText.dumps f.2) 130) :
    Short (JsonText.dumpsFields fields) (154 * fields.length) := by
  induction fields with
  | nil => exact ⟨le_rfl, List.all_iff_forall_prop.mp (by decide)⟩
  | cons f fields ih =>
      obtain ⟨key, v⟩ := f
      obtain ⟨hkey, hlength, hv⟩ := h (key, v) List.mem_cons_self
      have hfield : Short (JsonText.quote key ++ ':' :: JsonText.dumps v) 153 := by
        have := (short_quote hkey hlength).append (hv.cons (c := ':') (by decide))
        exact ⟨this.length, this.ascii⟩
      cases fields with
      | nil =>
          rw [JsonText.dumpsFields]
          exact ⟨le_trans hfield.length (by simp), hfield.ascii⟩
      | cons g fields =>
          have hrest := ih fun f hf => h f (List.mem_cons_of_mem _ hf)
          have := hfield.append (hrest.cons (c := ',') (by decide))
          rw [JsonText.dumpsFields]
          refine ⟨le_trans this.length ?_, this.ascii⟩
          simp only [List.length_cons]
          omega

/-- A body is within the size `from_body` reads. -/
theorem length_body {e : EventEnvelope} (h : e.aggregateVersion < 2 ^ 64) :
    e.body.length ≤ 4096 := by
  have huuid : ∀ n, Short (JsonText.dumps (.str (Uuid.text n))) 130 := by
    intro n
    rw [JsonText.dumps]
    have := short_quote (plain_uuid n) (length_uuid n).le
    exact ⟨le_trans this.length (by decide), this.ascii⟩
  have htype : ∀ s, eventTypeValid s = true → Short (JsonText.dumps (.str s)) 130 := by
    intro s hs
    rw [JsonText.dumps]
    exact short_quote (plain_type hs).1 (plain_type hs).2
  have hversion : Short (JsonText.dumps (.int e.aggregateVersion)) 130 := by
    obtain ⟨n, hn⟩ := Int.eq_ofNat_of_zero_le (show 0 ≤ e.aggregateVersion by
      have := e.versionOk
      omega)
    rw [hn, JsonText.dumps_nat]
    rw [hn] at h
    refine ⟨le_trans ((Nat.length_toDigits_le_iff (by decide) (by decide)).mpr
      (show n < 10 ^ 20 by omega)) (by decide), fun c hc => ?_⟩
    have hdigit := JsonText.isDigit_toDigits hc
    simp only [Char.isDigit, Bool.and_eq_true, decide_eq_true_eq] at hdigit
    have h9 : c.val.toNat ≤ (57 : UInt32).toNat := UInt32.le_iff_toNat_le.mp hdigit.2
    have : (57 : UInt32).toNat = 57 := rfl
    show c.val.toNat < 0x80
    omega
  have hfields : Short (JsonText.dumpsFields e.fields) (154 * e.fields.length) := by
    refine short_dumpsFields fun f hf => ?_
    have hname : ∀ key ∈ ["aggregate_id", "aggregate_type", "aggregate_version", "event_id",
        "event_type", "tenant_id"], (∀ c ∈ key.toList, Plain c) ∧ key.toList.length ≤ 20 := by
      have hcheck : ∀ key ∈ ["aggregate_id", "aggregate_type", "aggregate_version",
          "event_id", "event_type", "tenant_id"],
          key.toList.all (Plain ·) = true ∧ key.toList.length ≤ 20 := by
        decide
      intro key hkey
      exact ⟨List.all_iff_forall_prop.mp (hcheck key hkey).1, (hcheck key hkey).2⟩
    simp only [EventEnvelope.fields, List.mem_cons, List.not_mem_nil, or_false] at hf
    obtain rfl | rfl | rfl | rfl | rfl | rfl := hf
    · exact ⟨(hname _ (by simp)).1, (hname _ (by simp)).2, huuid _⟩
    · exact ⟨(hname _ (by simp)).1, (hname _ (by simp)).2, htype _ e.aggregateTypeOk⟩
    · exact ⟨(hname _ (by simp)).1, (hname _ (by simp)).2, hversion⟩
    · exact ⟨(hname _ (by simp)).1, (hname _ (by simp)).2, huuid _⟩
    · exact ⟨(hname _ (by simp)).1, (hname _ (by simp)).2, htype _ e.eventTypeOk⟩
    · exact ⟨(hname _ (by simp)).1, (hname _ (by simp)).2, huuid _⟩
  have hclose : Short ['}'] 1 := ⟨le_rfl, List.all_iff_forall_prop.mp (by decide)⟩
  have hshort := (hfields.append hclose).cons (c := '{') (by decide)
  have htext : JsonText.dumps (.obj e.fields)
      = '{' :: (JsonText.dumpsFields e.fields ++ ['}']) := by rw [JsonText.dumps]; rfl
  rw [EventEnvelope.body, htext]
  refine le_trans hshort.encode ?_
  show 154 * 6 + 1 + 1 ≤ 4096
  decide

/-- A UUID written, decoded and parsed. -/
theorem uuid_text (py : Interpreter) (u : UUID) :
    str py (.string (jsString (Uuid.text u.int).toList)) = .ok (Uuid.codes (Uuid.text u.int))
      ∧ uuid py (Uuid.codes (Uuid.text u.int)) = .ok u := by
  refine ⟨str_eq_ok.mpr ⟨rfl, points_plain (plain_uuid u.int)⟩, ?_⟩
  exact uuid_eq_ok.mpr (Uuid.parse_text py.decimals u.bound)

/-- The type names pass the check they passed. -/
theorem postInit_valid (e : EventEnvelope) :
    postInit e.eventId e.tenantId (Uuid.codes e.aggregateType) e.aggregateId
      (Uuid.codes e.eventType) e.aggregateVersion = .ok e.unrouted := by
  unfold postInit
  rw [charText_codes, charText_codes]
  dsimp only
  rw [dif_pos ⟨e.aggregateTypeOk, e.eventTypeOk, e.versionOk⟩]
  rfl

theorem fromBody_body (py : Interpreter) {e : EventEnvelope}
    (h : e.aggregateVersion < 2 ^ 64) : fromBody py e.body = .ok e.unrouted := by
  have hne : e.body ≠ [] := by
    intro hempty
    have htext := decodeUtf8_encode (JsonText.dumps (.obj e.fields))
    rw [show Utf8.encode (JsonText.dumps (.obj e.fields)) = [] from hempty] at htext
    have := Option.some.inj htext
    rw [JsonText.dumps] at this
    cases this
  have hloads : PyJson.loads py.recursionLimit (JsonText.dumps (.obj e.fields))
      = .ok (.object e.decoded) := by
    refine PyJson.loads_of_reads (reads_body e) ?_ ?_
    · have := py.recursionLimitPos
      show 1 ≤ py.recursionLimit
      omega
    · rw [JsonText.dumps]
      show some '{' ≠ some (Char.ofNat 0xFEFF)
      decide
  have hsize : ¬ (e.body = [] ∨ e.body.length > 4096) := by
    rw [not_or, not_lt]
    exact ⟨hne, length_body h⟩
  have htype : ∀ s, eventTypeValid s = true →
      str py (.string (jsString s.toList)) = .ok (Uuid.codes s) := fun s hs =>
    str_eq_ok.mpr ⟨rfl, points_plain (plain_type hs).1⟩
  have hconstruct : construct py e.decoded e.aggregateVersion
      = .ok e.unrouted := by
    have hevent : field e.decoded "event_id"
        = .string (jsString (Uuid.text e.eventId.int).toList) := rfl
    have htenant : field e.decoded "tenant_id"
        = .string (jsString (Uuid.text e.tenantId.int).toList) := rfl
    have haggregate : field e.decoded "aggregate_id"
        = .string (jsString (Uuid.text e.aggregateId.int).toList) := rfl
    have haggregateType : field e.decoded "aggregate_type"
        = .string (jsString e.aggregateType.toList) := rfl
    have heventType : field e.decoded "event_type"
        = .string (jsString e.eventType.toList) := rfl
    simp only [construct, hevent, htenant, haggregate, haggregateType, heventType, bind_eq_ok]
    refine ⟨_, (uuid_text py e.eventId).1, _, (uuid_text py e.eventId).2, _,
      (uuid_text py e.tenantId).1, _, (uuid_text py e.tenantId).2, _,
      htype _ e.aggregateTypeOk, _, (uuid_text py e.aggregateId).1, _,
      (uuid_text py e.aggregateId).2, _, htype _ e.eventTypeOk, postInit_valid e⟩
  unfold fromBody
  simp only [bind_eq_ok, raiseIf_eq_ok, orRaise_eq_ok]
  refine ⟨(), hsize, _, decodeUtf8_encode _, ?_⟩
  rw [hloads]
  dsimp only
  simp only [bind_eq_ok, raiseIf_eq_ok, orRaise_eq_ok]
  refine ⟨(), ?_, e.aggregateVersion, rfl, hconstruct⟩
  have hkeys : hasRequired e.decoded = true := rfl
  rw [hkeys]
  decide

-- ================================================================= result

/-- Every envelope comes back from its body, and a consumer redelivers a
body exactly when it is not `Clean`. -/
theorem envelope_codec (py : Interpreter) :
    (∀ e : EventEnvelope, e.aggregateVersion < 2 ^ 64 → fromBody py e.body = .ok e.unrouted)
      ∧ ∀ body, deliver py body ≠ .requeued ↔ Clean py body :=
  ⟨fun _ h => fromBody_body py h, requeued_iff py⟩

/-- An interpreter that knows the ASCII digits only. -/
def samplePy : Interpreter :=
  { recursionLimit := 1000, recursionLimitPos := by decide, reprLimit := 1000
    decimals := ⟨fun c => if 48 ≤ c ∧ c ≤ 57 then some (c - 48) else none, fun _ _ => rfl⟩
    floatText := fun literal => literal.map Char.toNat
    containerText := fun _ => Uuid.codes "[]" }

def sampleEnvelope : EventEnvelope :=
  { eventId := ⟨1, by decide⟩, tenantId := ⟨2, by decide⟩, aggregateType := "conversation"
    aggregateId := ⟨3, by decide⟩, eventType := "chat.inference.execute"
    aggregateVersion := 1, routingKey := some "chat.inference.execute"
    aggregateTypeOk := by decide, eventTypeOk := by decide, versionOk := by decide
    routingKeyOk := by
      intro key hkey
      obtain rfl := Option.some.inj hkey
      decide }

theorem envelope_codec_sample :
    fromBody samplePy sampleEnvelope.body = .ok sampleEnvelope.unrouted
      ∧ Clean samplePy sampleEnvelope.body := by
  have hback := (envelope_codec samplePy).1 sampleEnvelope (by decide)
  refine ⟨hback, ((envelope_codec samplePy).2 sampleEnvelope.body).mp ?_⟩
  unfold deliver
  rw [hback]
  exact fun h => by cases h

/-- The six fields, the version among them a boolean. -/
def booleanVersion : List UInt8 :=
  Utf8.encode ("\x7b\"event_id\":0,\"tenant_id\":0,\"aggregate_type\":0,".toList
    ++ "\"aggregate_id\":0,\"event_type\":0,\"aggregate_version\":true\x7d".toList)

def Delivery.isRequeued : Delivery → Bool
  | .requeued => true
  | _ => false

theorem booleanVersion_redelivered : ¬ ∀ py body, deliver py body ≠ .requeued := by
  intro h
  have hrequeued : (deliver samplePy booleanVersion).isRequeued = true := by decide +kernel
  cases hd : deliver samplePy booleanVersion with
  | handled e =>
      rw [hd] at hrequeued
      cases hrequeued
  | rejected =>
      rw [hd] at hrequeued
      cases hrequeued
  | requeued => exact h samplePy booleanVersion hd

end Mosaic.Messaging
