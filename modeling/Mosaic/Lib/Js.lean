/-
Untyped JavaScript data, and JSON as JavaScript writes and reads it.

# Values

A `Js` is plain data: what JSON and object literals make, with `undefined`
and the numbers that are not finite. A record keeps its properties in the
order they were added; nothing here depends on that order. `Distinct` says
that no record has a name twice, as no JavaScript object does.

# Numbers

The arithmetic of doubles is a parameter, `Numerals`: which of them are
finite, which are integers, and that a finite one is written as a literal
that is read back as itself. The two zeros count as one number.

# Round trip

`parse_stringify`: what is a JSON value is read back as it was written.
The size of a text in bytes is a sum over the properties (`bytes_record`),
so selecting some of them makes it no larger (`weight_select`).
-/
import Mosaic.Lib.JsonText
import Mosaic.Lib.Utf8

namespace Mosaic.Lib

-- =============================================================== numbers

/-- The doubles of a runtime, `Number.isFinite` and `Number.isInteger` of
them, their text and how a literal is read. -/
structure Numerals where
  Double : Type
  finite : Double → Bool
  /-- The integer it is. -/
  integer : Double → Option Int
  ofInt : Int → Double
  text : Double → List Char
  read : List Char → Double
  integer_finite : ∀ {d n}, integer d = some n → finite d = true
  integer_inj : ∀ {d d' n}, integer d = some n → integer d' = some n → d = d'
  integer_ofInt : ∀ {n : Int}, n.natAbs < 2 ^ 53 → integer (ofInt n) = some n
  text_literal : ∀ {d rest}, finite d = true → JsonText.Ends rest →
    JsonText.numberLiteral (text d ++ rest) = some (text d, rest)
  read_text : ∀ {d}, finite d = true → read (text d) = d

-- ================================================================ values

/-- A JavaScript string. -/
abbrev JsStr := List UInt16

/-- A text of well-formed Unicode as a JavaScript string. -/
def js (s : String) : JsStr := JsonText.jsString s.toList

inductive Js (δ : Type)
  | undefined
  | null
  | bool (b : Bool)
  | number (d : δ)
  | string (s : JsStr)
  | array (items : List (Js δ))
  | record (fields : List (JsStr × Js δ))

namespace Js

variable {δ : Type}

section induction

variable {P : Js δ → Prop} (undefined : P .undefined) (null : P .null)
  (bool : ∀ b, P (.bool b)) (number : ∀ d, P (.number d)) (string : ∀ s, P (.string s))
  (array : ∀ items, (∀ v ∈ items, P v) → P (.array items))
  (record : ∀ fields, (∀ f ∈ fields, P f.2) → P (.record fields))

include undefined null bool number string array record

set_option linter.unusedSectionVars false

mutual

theorem holds : ∀ v : Js δ, P v
  | .undefined => undefined
  | .null => null
  | .bool b => bool b
  | .number d => number d
  | .string s => string s
  | .array items => array items (holds_items items)
  | .record fields => record fields (holds_fields fields)

theorem holds_items : ∀ items : List (Js δ), ∀ v ∈ items, P v
  | [] => fun _ h => absurd h List.not_mem_nil
  | x :: xs => List.forall_mem_cons.mpr ⟨holds x, holds_items xs⟩

theorem holds_fields : ∀ fields : List (JsStr × Js δ), ∀ f ∈ fields, P f.2
  | [] => fun _ h => absurd h List.not_mem_nil
  | (_, x) :: xs => List.forall_mem_cons.mpr ⟨holds x, holds_fields xs⟩

end

/-- Induction over what an array or a record holds. -/
@[elab_as_elim, induction_eliminator]
theorem induct (v : Js δ) : P v := holds undefined null bool number string array record v

end induction

/-- No record has a name twice. -/
inductive Distinct : Js δ → Prop
  | undefined : Distinct .undefined
  | null : Distinct .null
  | bool (b : Bool) : Distinct (.bool b)
  | number (d : δ) : Distinct (.number d)
  | string (s : JsStr) : Distinct (.string s)
  | array {items : List (Js δ)} (h : ∀ v ∈ items, Distinct v) : Distinct (.array items)
  | record {fields : List (JsStr × Js δ)} (hkeys : (fields.map (·.1)).Nodup)
      (h : ∀ f ∈ fields, Distinct f.2) : Distinct (.record fields)

/-- A value as the language makes them. -/
structure Data (δ : Type) where
  value : Js δ
  distinct : value.Distinct

-- ============================================================ properties

/-- A property of a list of properties; absent is `undefined`. -/
def field (fields : List (JsStr × Js δ)) (k : JsStr) : Js δ :=
  match fields.find? fun f => f.1 == k with
  | some f => f.2
  | none => .undefined

/-- `value[k]` of a record. -/
def get : Js δ → JsStr → Js δ
  | .record fields, k => field fields k
  | _, _ => .undefined

/-- The properties of a record. -/
def entries : Js δ → List (JsStr × Js δ)
  | .record fields => fields
  | _ => []

/-- The elements of an array. -/
def elements : Js δ → List (Js δ)
  | .array items => items
  | _ => []

def isRecord : Js δ → Bool
  | .record _ => true
  | _ => false

def isArray : Js δ → Bool
  | .array _ => true
  | _ => false

def isUndefined : Js δ → Bool
  | .undefined => true
  | _ => false

def isNull : Js δ → Bool
  | .null => true
  | _ => false

def isBool : Js δ → Bool
  | .bool _ => true
  | _ => false

/-- The string a value is. -/
def str? : Js δ → Option JsStr
  | .string s => some s
  | _ => none

def isString (v : Js δ) : Bool := v.str?.isSome

/-- Names are compared by their code units. -/
scoped instance : LawfulBEq JsStr := inferInstance

/-- `fields[k] = v`: in the place of the old value, else at the end. -/
def assign (fields : List (JsStr × Js δ)) (k : JsStr) (v : Js δ) : List (JsStr × Js δ) :=
  if k ∈ fields.map (·.1) then fields.map fun f => if f.1 = k then (k, v) else f
  else fields ++ [(k, v)]

/-- `Object.fromEntries`. -/
def fromEntries (entries : List (JsStr × Js δ)) : Js δ :=
  .record (entries.foldl (fun fields e => assign fields e.1 e.2) [])

/-- `{ ...value, [k]: v }`. -/
def set (value : Js δ) (k : JsStr) (v : Js δ) : Js δ := .record (assign value.entries k v)

/-- `...(v === undefined ? {} : { [k]: v })`. -/
def optional (k : JsStr) (v : Js δ) : List (JsStr × Js δ) :=
  if v.isUndefined = true then [] else [(k, v)]

-- =============================================================== writing

/-- Half of a surrogate pair. -/
def isHigh (u : UInt16) : Bool := 0xD800 ≤ u.toNat && u.toNat < 0xDC00

def isLow (u : UInt16) : Bool := 0xDC00 ≤ u.toNat && u.toNat < 0xE000

/-- The character of a pair. -/
def pairChar (high low : UInt16) : Char :=
  Char.ofNat (0x10000 + (high.toNat - 0xD800) * 0x400 + (low.toNat - 0xDC00))

/-- `QuoteJSONString` of one unit; half a pair on its own is escaped. -/
def quoteUnit (u : UInt16) : List Char :=
  if isHigh u || isLow u then
    ['\\', 'u', Nat.digitChar (u.toNat / 0x1000), Nat.digitChar (u.toNat / 0x100 % 0x10),
      Nat.digitChar (u.toNat / 0x10 % 0x10), Nat.digitChar (u.toNat % 0x10)]
  else JsonText.escape (Char.ofNat u.toNat)

def quoteUnits : JsStr → List Char
  | [] => []
  | [u] => quoteUnit u
  | u :: l :: rest =>
      if isHigh u && isLow l then pairChar u l :: quoteUnits rest
      else quoteUnit u ++ quoteUnits (l :: rest)

def quote (s : JsStr) : List Char := '"' :: quoteUnits s ++ ['"']

/-- Texts with commas between them. -/
def commas : List (List Char) → List Char
  | [] => []
  | [t] => t
  | t :: t' :: ts => t ++ ',' :: commas (t' :: ts)

section

variable (N : Numerals)

mutual

/-- `JSON.stringify` of a value that is not `undefined`, which an array
shows as `null`. -/
def stringify : Js N.Double → List Char
  | .undefined => ['n', 'u', 'l', 'l']
  | .null => ['n', 'u', 'l', 'l']
  | .bool true => ['t', 'r', 'u', 'e']
  | .bool false => ['f', 'a', 'l', 's', 'e']
  | .number d => if N.finite d = true then N.text d else ['n', 'u', 'l', 'l']
  | .string s => quote s
  | .array items => '[' :: commas (itemTexts items) ++ [']']
  | .record fields => '{' :: commas (fieldTexts fields) ++ ['}']

def itemTexts : List (Js N.Double) → List (List Char)
  | [] => []
  | v :: items => stringify v :: itemTexts items

/-- A property that is `undefined` is left out. -/
def fieldTexts : List (JsStr × Js N.Double) → List (List Char)
  | [] => []
  | (k, v) :: fields =>
      if v.isUndefined = true then fieldTexts fields
      else (quote k ++ ':' :: stringify v) :: fieldTexts fields

end

mutual

/-- What JSON can say: no `undefined` and no number that is not finite. -/
def isJson : Js N.Double → Bool
  | .undefined => false
  | .null => true
  | .bool _ => true
  | .number d => N.finite d
  | .string _ => true
  | .array items => isJsonItems items
  | .record fields => isJsonFields fields

def isJsonItems : List (Js N.Double) → Bool
  | [] => true
  | v :: items => isJson v && isJsonItems items

def isJsonFields : List (JsStr × Js N.Double) → Bool
  | [] => true
  | (_, v) :: fields => isJson v && isJsonFields fields

end

-- =============================================================== reading

mutual

/-- The value a parsed text stands for; of two properties of one name the
later one counts. -/
def ofJson : JsonText.JsValue → Js N.Double
  | .null => .null
  | .bool b => .bool b
  | .number (.integer n) => .number (N.ofInt n)
  | .number (.other literal) => .number (N.read literal)
  | .string s => .string s
  | .array items => .array (ofItems items)
  | .object fields => .record (ofFields fields [])

def ofItems : List JsonText.JsValue → List (Js N.Double)
  | [] => []
  | v :: items => ofJson v :: ofItems items

def ofFields : List (JsStr × JsonText.JsValue) → List (JsStr × Js N.Double) →
    List (JsStr × Js N.Double)
  | [], fields => fields
  | (k, v) :: rest, fields => ofFields rest (assign fields k (ofJson v))

end

/-- `JSON.parse`; none is a `SyntaxError`. -/
def parse (text : List Char) : Option (Js N.Double) :=
  (JsonText.parse JsonText.JsNumber.other text).map (ofJson N)

end

-- =============================================================== strings

theorem toNat_ofNat {n : Nat} (h : n < 0xD800 ∨ (0xDFFF < n ∧ n < 0x110000)) :
    (Char.ofNat n).toNat = n := by
  have hvalid : n.isValidChar := by
    unfold Nat.isValidChar
    omega
  simp [Char.ofNat, hvalid, Char.toNat, Char.ofNatAux]

theorem digitUnit_hexDigit {n : Nat} (h : n < 16) : JsonText.hexDigit (Nat.digitChar n) = some n :=
  JsonText.hexDigit_digitChar n h

/-- A unit that is quoted on its own is read as itself. -/
theorem stringBody_quoteUnit (u : UInt16) (rest : List Char) :
    JsonText.stringBody (quoteUnit u ++ rest)
      = (JsonText.stringBody rest).map fun p => (u :: p.1, p.2) := by
  have hlt : u.toNat < 0x10000 := UInt16.toNat_lt u
  unfold quoteUnit
  split
  · have hunit : JsonText.hexUnit (Nat.digitChar (u.toNat / 0x1000))
        (Nat.digitChar (u.toNat / 0x100 % 0x10)) (Nat.digitChar (u.toNat / 0x10 % 0x10))
        (Nat.digitChar (u.toNat % 0x10)) = some u := by
      have hval : ((u.toNat / 0x1000 * 16 + u.toNat / 0x100 % 0x10) * 16
          + u.toNat / 0x10 % 0x10) * 16 + u.toNat % 0x10 = u.toNat := by
        omega
      simp only [JsonText.hexUnit, digitUnit_hexDigit (show u.toNat / 0x1000 < 16 by omega),
        digitUnit_hexDigit (show u.toNat / 0x100 % 0x10 < 16 by omega),
        digitUnit_hexDigit (show u.toNat / 0x10 % 0x10 < 16 by omega),
        digitUnit_hexDigit (show u.toNat % 0x10 < 16 by omega), Option.bind_eq_bind,
        Option.bind_some, hval, UInt16.ofNat_toNat]
      rfl
    cases hb : JsonText.stringBody rest <;> simp [JsonText.stringBody, hunit, hb]
  · next h =>
      simp only [isHigh, isLow, Bool.or_eq_true, Bool.and_eq_true, decide_eq_true_eq] at h
      have hnat : (Char.ofNat u.toNat).toNat = u.toNat := toNat_ofNat (by omega)
      have hunits : JsonText.units (Char.ofNat u.toNat) = [u] := by
        rw [JsonText.units, hnat, if_pos hlt, UInt16.ofNat_toNat]
      rw [JsonText.stringBody_escape, hunits]
      rfl

/-- A pair is written as its character. -/
theorem units_pairChar {u l : UInt16} (hu : isHigh u = true) (hl : isLow l = true) :
    JsonText.units (pairChar u l) = [u, l] ∧ JsonText.escape (pairChar u l) = [pairChar u l] := by
  simp only [isHigh, isLow, Bool.and_eq_true, decide_eq_true_eq] at hu hl
  have hnat : (pairChar u l).toNat
      = 0x10000 + (u.toNat - 0xD800) * 0x400 + (l.toNat - 0xDC00) :=
    toNat_ofNat (by omega)
  constructor
  · have hhigh : 0xD800 + ((pairChar u l).toNat - 0x10000) / 0x400 = u.toNat := by omega
    have hlow : 0xDC00 + ((pairChar u l).toNat - 0x10000) % 0x400 = l.toNat := by omega
    rw [JsonText.units, if_neg (by omega), hhigh, hlow, UInt16.ofNat_toNat,
      UInt16.ofNat_toNat]
  · have hne : ∀ c : Char, c.toNat < 0x10000 → pairChar u l ≠ c := by
      rintro c hc rfl
      omega
    rw [JsonText.escape, if_neg (hne '"' (by decide)), if_neg (hne '\\' (by decide)),
      if_neg (hne '\n' (by decide)), if_neg (hne '\r' (by decide)),
      if_neg (hne '\t' (by decide)), if_neg (by omega), if_neg (by omega),
      if_neg (by omega)]

theorem stringBody_quoteUnits (s : JsStr) (rest : List Char) :
    JsonText.stringBody (quoteUnits s ++ '"' :: rest) = some (s, rest) := by
  fun_induction quoteUnits s with
  | case1 => rfl
  | case2 u =>
      rw [stringBody_quoteUnit]
      rfl
  | case3 u l s hpair ih =>
      simp only [Bool.and_eq_true] at hpair
      obtain ⟨hunits, hescape⟩ := units_pairChar hpair.1 hpair.2
      have htext : pairChar u l :: quoteUnits s ++ '"' :: rest
          = JsonText.escape (pairChar u l) ++ (quoteUnits s ++ '"' :: rest) := by
        rw [hescape]
        rfl
      rw [htext, JsonText.stringBody_escape, ih, hunits]
      rfl
  | case4 u l s _ ih =>
      rw [List.append_assoc, stringBody_quoteUnit, ih]
      rfl

-- ================================================================ values

/-- A text that is read as a value, whatever follows it. -/
structure ReadsAs (text : List Char) (j : JsonText.JsValue) : Prop where
  opens : ∃ c tail, text = c :: tail ∧ JsonText.blank c = false ∧ c ≠ ']'
  value_eq : ∀ fuel rest, text.length < fuel → JsonText.Ends rest →
    JsonText.value JsonText.JsNumber.other fuel (text ++ rest) = some (j, rest)

theorem readsAs_null : ReadsAs ['n', 'u', 'l', 'l'] .null where
  opens := ⟨_, _, rfl, by decide, by decide⟩
  value_eq := by
    intro fuel rest hfuel _
    obtain ⟨fuel, rfl⟩ := Nat.exists_eq_succ_of_ne_zero (by omega : fuel ≠ 0)
    rfl

theorem readsAs_true : ReadsAs ['t', 'r', 'u', 'e'] (.bool true) where
  opens := ⟨_, _, rfl, by decide, by decide⟩
  value_eq := by
    intro fuel rest hfuel _
    obtain ⟨fuel, rfl⟩ := Nat.exists_eq_succ_of_ne_zero (by omega : fuel ≠ 0)
    rfl

theorem readsAs_false : ReadsAs ['f', 'a', 'l', 's', 'e'] (.bool false) where
  opens := ⟨_, _, rfl, by decide, by decide⟩
  value_eq := by
    intro fuel rest hfuel _
    obtain ⟨fuel, rfl⟩ := Nat.exists_eq_succ_of_ne_zero (by omega : fuel ≠ 0)
    rfl

theorem readsAs_string (s : JsStr) : ReadsAs (quote s) (.string s) where
  opens := ⟨_, _, rfl, by decide, by decide⟩
  value_eq := by
    intro fuel rest hfuel _
    obtain ⟨fuel, rfl⟩ := Nat.exists_eq_succ_of_ne_zero (by omega : fuel ≠ 0)
    have htext : quote s ++ rest = '"' :: (quoteUnits s ++ '"' :: rest) := by
      simp [quote]
    rw [htext]
    simp only [JsonText.value, JsonText.skip_of_not_blank (show JsonText.blank '"' = false by
      decide), stringBody_quoteUnits]
    rfl

/-- A number starts with its sign or a digit. -/
theorem numberLiteral_head {cs : List Char} {x : List Char × List Char}
    (h : JsonText.numberLiteral cs = some x) :
    ∃ c tail, cs = c :: tail ∧ (c = '-' ∨ c.isDigit = true) := by
  cases cs with
  | nil => cases h
  | cons c tail =>
      refine ⟨c, tail, rfl, ?_⟩
      by_contra hc
      push Not at hc
      obtain ⟨hminus, hdigit⟩ := hc
      have hzero : c ≠ '0' := by
        rintro rfl
        exact hdigit rfl
      have hsign : ((c :: tail).take 1).filter (fun s => s == '-') = [] := by
        simp [hminus]
      have hwhole : JsonText.integerPart (c :: tail) = none := by
        unfold JsonText.integerPart
        split
        · next heq => exact absurd (List.cons.inj heq).1 hzero
        · simp [hdigit]
      simp only [JsonText.numberLiteral, hsign, List.length_nil, List.drop_zero, hwhole,
        Option.bind_eq_bind, Option.bind_none] at h
      cases h

/-- Nothing but a number starts so. -/
theorem value_number {fuel : Nat} {c : Char} {tail : List Char}
    (hc : c = '-' ∨ c.isDigit = true) :
    JsonText.value JsonText.JsNumber.other (fuel + 1) (c :: tail)
      = (JsonText.numberLiteral (c :: tail)).bind fun x =>
          some (.number (.other x.1), x.2) := by
  have hblank : JsonText.blank c = false := by
    by_contra hb
    simp only [JsonText.blank, Bool.or_eq_true, beq_iff_eq, Bool.not_eq_false] at hb
    obtain ((rfl | rfl) | rfl) | rfl := hb <;> simp at hc
  have hother : ∀ {x xs}, c :: tail = x :: xs → x = '-' ∨ x.isDigit = true :=
    fun heq => (List.cons.inj heq).1 ▸ hc
  rw [JsonText.value, JsonText.skip_of_not_blank hblank]
  split
  · next heq => simpa using hother heq
  · next heq => simpa using hother heq
  · next heq => simpa using hother heq
  · next heq => simpa using hother heq
  · next heq => simpa using hother heq
  · next heq => simpa using hother heq
  · rfl

theorem readsAs_number (N : Numerals) {d : N.Double} (hd : N.finite d = true) :
    ReadsAs (N.text d) (.number (.other (N.text d))) := by
  have hliteral : ∀ {rest}, JsonText.Ends rest →
      JsonText.numberLiteral (N.text d ++ rest) = some (N.text d, rest) :=
    fun hrest => N.text_literal hd hrest
  obtain ⟨c, tail, htext, hc⟩ :=
    numberLiteral_head (@hliteral [] (fun c hc => by cases hc))
  rw [List.append_nil] at htext
  refine ⟨⟨c, tail, htext, ?_, ?_⟩, fun fuel rest hfuel hrest => ?_⟩
  · by_contra hb
    simp only [JsonText.blank, Bool.or_eq_true, beq_iff_eq, Bool.not_eq_false] at hb
    obtain ((rfl | rfl) | rfl) | rfl := hb <;> simp at hc
  · rintro rfl
    simp at hc
  · obtain ⟨fuel, rfl⟩ := Nat.exists_eq_succ_of_ne_zero (by omega : fuel ≠ 0)
    have hnumber := hliteral hrest
    rw [htext, List.cons_append] at hnumber ⊢
    rw [value_number hc, hnumber]
    rfl

/-- What comes after the bracket of an array, its blanks skipped. -/
theorem value_array (fuel : Nat) (cs : List Char) :
    JsonText.value JsonText.JsNumber.other (fuel + 1) ('[' :: cs)
      = match JsonText.skip cs with
        | ']' :: rest => some (.array [], rest)
        | rest => (JsonText.elements JsonText.JsNumber.other fuel rest).bind fun x =>
            some (.array x.1, x.2) := rfl

/-- What comes after the brace of a record. -/
theorem value_record (fuel : Nat) (cs : List Char) :
    JsonText.value JsonText.JsNumber.other (fuel + 1) ('{' :: cs)
      = match JsonText.skip cs with
        | '}' :: rest => some (.object [], rest)
        | rest => (JsonText.members JsonText.JsNumber.other fuel rest).bind fun x =>
            some (.object x.1, x.2) := rfl

theorem elements_commas {texts : List (List Char)} {values : List JsonText.JsValue}
    (h : List.Forall₂ ReadsAs texts values) (hne : texts ≠ []) {fuel : Nat}
    {rest : List Char} (hfuel : (commas texts).length + 1 < fuel) :
    JsonText.elements JsonText.JsNumber.other fuel (commas texts ++ ']' :: rest)
      = some (values, rest) := by
  induction h generalizing fuel with
  | nil => exact absurd rfl hne
  | @cons t v texts values hv htail ih =>
      obtain ⟨fuel, rfl⟩ := Nat.exists_eq_succ_of_ne_zero (by omega : fuel ≠ 0)
      cases htail with
      | nil =>
          rw [commas] at hfuel ⊢
          have hvalue := hv.value_eq fuel (']' :: rest) (by omega)
            (JsonText.ends_cons (by decide) rest)
          simp only [JsonText.elements, hvalue, Option.bind_eq_bind, Option.bind_some,
            JsonText.skip_of_not_blank (show JsonText.blank ']' = false by decide)]
          rfl
      | @cons t' v' texts values hv' htail =>
          have htext : commas (t :: t' :: texts) ++ ']' :: rest
              = t ++ ',' :: (commas (t' :: texts) ++ ']' :: rest) := by
            simp [commas]
          simp only [commas, List.length_append, List.length_cons] at hfuel
          have hvalue := hv.value_eq fuel (',' :: (commas (t' :: texts) ++ ']' :: rest))
            (by omega) (JsonText.ends_cons (by decide) _)
          have hitems := @ih (by simp) fuel (by omega)
          rw [htext]
          simp only [JsonText.elements, hvalue, Option.bind_eq_bind, Option.bind_some,
            JsonText.skip_of_not_blank (show JsonText.blank ',' = false by decide), hitems]
          rfl

theorem readsAs_array {texts : List (List Char)} {values : List JsonText.JsValue}
    (h : List.Forall₂ ReadsAs texts values) :
    ReadsAs ('[' :: commas texts ++ [']']) (.array values) where
  opens := ⟨_, _, rfl, by decide, by decide⟩
  value_eq := by
    intro fuel rest hfuel _
    obtain ⟨fuel, rfl⟩ := Nat.exists_eq_succ_of_ne_zero (by omega : fuel ≠ 0)
    have htext : '[' :: commas texts ++ [']'] ++ rest
        = '[' :: (commas texts ++ ']' :: rest) := by
      simp
    rw [htext, value_array]
    cases h with
    | nil =>
        rw [commas, List.nil_append, JsonText.skip_of_not_blank (by decide)]
        rfl
    | @cons t v texts values hv htail =>
        have helements : JsonText.elements JsonText.JsNumber.other fuel
            (commas (t :: texts) ++ ']' :: rest) = some (v :: values, rest) :=
          elements_commas (List.Forall₂.cons hv htail) (by simp) (by simpa using hfuel)
        -- the text of the first element starts neither blank nor with a bracket
        obtain ⟨c, tail, hc, hblank, hclose⟩ := hv.opens
        obtain ⟨tail', htail'⟩ : ∃ tail', commas (t :: texts) ++ ']' :: rest = c :: tail' := by
          rw [hc]
          cases texts with
          | nil => exact ⟨_, rfl⟩
          | cons t' texts => exact ⟨_, rfl⟩
        rw [htail'] at helements ⊢
        rw [JsonText.skip_of_not_blank hblank]
        split
        · next heq => exact absurd (List.cons.inj heq).1 hclose
        · rw [helements]
          rfl

/-- The text of a property. -/
def fieldText (k : JsStr) (text : List Char) : List Char := quote k ++ ':' :: text

theorem members_commas {fields : List (JsStr × List Char)} {values : List JsonText.JsValue}
    (h : List.Forall₂ (fun f v => ReadsAs f.2 v) fields values) (hne : fields ≠ [])
    {fuel : Nat} {rest : List Char}
    (hfuel : (commas (fields.map fun f => fieldText f.1 f.2)).length < fuel) :
    JsonText.members JsonText.JsNumber.other fuel
        (commas (fields.map fun f => fieldText f.1 f.2) ++ '}' :: rest)
      = some (List.zipWith (fun f v => (f.1, v)) fields values, rest) := by
  induction h generalizing fuel with
  | nil => exact absurd rfl hne
  | @cons f v fields values hv htail ih =>
      obtain ⟨k, t⟩ := f
      obtain ⟨fuel, rfl⟩ := Nat.exists_eq_succ_of_ne_zero (by omega : fuel ≠ 0)
      cases htail with
      | nil =>
          simp only [List.map_cons, List.map_nil, commas, fieldText, quote, List.length_append,
            List.length_cons] at hfuel
          have htext : commas (List.map (fun f => fieldText f.1 f.2) [(k, t)]) ++ '}' :: rest
              = '"' :: (quoteUnits k ++ '"' :: ':' :: (t ++ '}' :: rest)) := by
            simp [commas, fieldText, quote]
          have hvalue := hv.value_eq fuel ('}' :: rest) (by dsimp only; omega)
            (JsonText.ends_cons (by decide) rest)
          rw [htext, JsonText.members, JsonText.skip_of_not_blank (by decide)]
          simp only [stringBody_quoteUnits, Option.bind_eq_bind, Option.bind_some,
            JsonText.skip_of_not_blank (show JsonText.blank ':' = false by decide), hvalue,
            JsonText.skip_of_not_blank (show JsonText.blank '}' = false by decide)]
          rfl
      | @cons f' v' fields values hv' htail =>
          simp only [List.map_cons, commas, fieldText, quote, List.length_append,
            List.length_cons] at hfuel
          have htext : commas (List.map (fun f => fieldText f.1 f.2) ((k, t) :: f' :: fields))
                ++ '}' :: rest
              = '"' :: (quoteUnits k ++ '"' :: ':' :: (t ++ ','
                :: (commas (List.map (fun f => fieldText f.1 f.2) (f' :: fields))
                  ++ '}' :: rest))) := by
            simp [commas, fieldText, quote]
          have hvalue := hv.value_eq fuel (',' :: (commas (List.map
            (fun f => fieldText f.1 f.2) (f' :: fields)) ++ '}' :: rest)) (by dsimp only; omega)
            (JsonText.ends_cons (by decide) _)
          have hfields := @ih (by simp) fuel (by
            simp only [List.map_cons, fieldText, quote] at hfuel ⊢
            omega)
          rw [htext, JsonText.members, JsonText.skip_of_not_blank (by decide)]
          simp only [stringBody_quoteUnits, Option.bind_eq_bind, Option.bind_some,
            JsonText.skip_of_not_blank (show JsonText.blank ':' = false by decide), hvalue,
            JsonText.skip_of_not_blank (show JsonText.blank ',' = false by decide), hfields]
          rfl

theorem readsAs_record {fields : List (JsStr × List Char)} {values : List JsonText.JsValue}
    (h : List.Forall₂ (fun f v => ReadsAs f.2 v) fields values) :
    ReadsAs ('{' :: commas (fields.map fun f => fieldText f.1 f.2) ++ ['}'])
      (.object (List.zipWith (fun f v => (f.1, v)) fields values)) where
  opens := ⟨_, _, rfl, by decide, by decide⟩
  value_eq := by
    intro fuel rest hfuel _
    obtain ⟨fuel, rfl⟩ := Nat.exists_eq_succ_of_ne_zero (by omega : fuel ≠ 0)
    have htext : '{' :: commas (fields.map fun f => fieldText f.1 f.2) ++ ['}'] ++ rest
        = '{' :: (commas (fields.map fun f => fieldText f.1 f.2) ++ '}' :: rest) := by
      simp
    rw [htext, value_record]
    cases h with
    | nil =>
        rw [List.map_nil, commas, List.nil_append, JsonText.skip_of_not_blank (by decide)]
        rfl
    | @cons f v fields values hv htail =>
        have hlen : (commas ((f :: fields).map fun f => fieldText f.1 f.2)).length < fuel := by
          simp only [List.length_append, List.length_cons] at hfuel
          omega
        have hmembers : JsonText.members JsonText.JsNumber.other fuel
            (commas ((f :: fields).map fun f => fieldText f.1 f.2) ++ '}' :: rest)
            = some (List.zipWith (fun f v => (f.1, v)) (f :: fields) (v :: values), rest) :=
          members_commas (List.Forall₂.cons hv htail) (by simp) hlen
        obtain ⟨tail', htail'⟩ : ∃ tail', commas ((f :: fields).map
            fun f => fieldText f.1 f.2) ++ '}' :: rest = '"' :: tail' := by
          cases fields with
          | nil => exact ⟨_, rfl⟩
          | cons f' fields => exact ⟨_, rfl⟩
        rw [htail'] at hmembers ⊢
        rw [JsonText.skip_of_not_blank (by decide)]
        show (JsonText.members JsonText.JsNumber.other fuel ('"' :: tail')).bind _ = _
        rw [hmembers]
        rfl

-- ============================================================ round trip

variable {N : Numerals}

theorem itemTexts_eq (items : List (Js N.Double)) :
    itemTexts N items = items.map (stringify N) := by
  induction items with
  | nil => rfl
  | cons v items ih => rw [itemTexts, ih, List.map_cons]

theorem fieldTexts_eq (fields : List (JsStr × Js N.Double)) :
    fieldTexts N fields = (fields.filter fun f => !f.2.isUndefined).map
      fun f => fieldText f.1 (stringify N f.2) := by
  induction fields with
  | nil => rfl
  | cons f fields ih =>
      obtain ⟨k, v⟩ := f
      rw [fieldTexts]
      split
      · next h => rw [ih, List.filter_cons_of_neg (by simp [h])]
      · next h =>
          rw [ih, List.filter_cons_of_pos (by simp [h])]
          rfl

theorem isJson_array {items : List (Js N.Double)} :
    isJson N (.array items) = true ↔ ∀ v ∈ items, isJson N v = true := by
  rw [isJson]
  induction items with
  | nil => simp [isJsonItems]
  | cons v items ih => simp [isJsonItems, ih]

theorem isJson_record {fields : List (JsStr × Js N.Double)} :
    isJson N (.record fields) = true ↔ ∀ f ∈ fields, isJson N f.2 = true := by
  rw [isJson]
  induction fields with
  | nil => simp [isJsonFields]
  | cons f fields ih => simp [isJsonFields, ih]

theorem defined_of_isJson {v : Js N.Double} (h : isJson N v = true) : v.isUndefined = false := by
  cases v with
  | undefined => cases h
  | _ => rfl

theorem ofItems_eq (items : List JsonText.JsValue) : ofItems N items = items.map (ofJson N) := by
  induction items with
  | nil => rfl
  | cons v items ih => rw [ofItems, ih, List.map_cons]

/-- Names that are all new are added in turn. -/
theorem ofFields_eq (fields : List (JsStr × JsonText.JsValue))
    (acc : List (JsStr × Js N.Double))
    (hkeys : (acc.map (·.1) ++ fields.map (·.1)).Nodup) :
    ofFields N fields acc = acc ++ fields.map fun f => (f.1, ofJson N f.2) := by
  induction fields generalizing acc with
  | nil => simp [ofFields]
  | cons f fields ih =>
      obtain ⟨k, v⟩ := f
      have hnew : k ∉ acc.map (·.1) := by
        intro hmem
        rw [List.map_cons, List.nodup_append] at hkeys
        exact hkeys.2.2 k hmem k List.mem_cons_self rfl
      rw [ofFields, assign, if_neg hnew, ih]
      · simp
      · simpa using hkeys

theorem exists_forall₂ {α β : Type} {R : α → β → Prop} {l : List α}
    (h : ∀ a ∈ l, ∃ b, R a b) : ∃ bs, List.Forall₂ R l bs := by
  induction l with
  | nil => exact ⟨[], .nil⟩
  | cons a l ih =>
      obtain ⟨b, hb⟩ := h a List.mem_cons_self
      obtain ⟨bs, hbs⟩ := ih fun x hx => h x (List.mem_cons_of_mem a hx)
      exact ⟨b :: bs, .cons hb hbs⟩

/-- The text of a JSON value is read as what stands for the value. -/
theorem readsAs_stringify {v : Js N.Double} (hjson : isJson N v = true) (hdistinct : Distinct v) :
    ∃ j, ReadsAs (stringify N v) j ∧ ofJson N j = v := by
  induction v with
  | undefined => cases hjson
  | null => exact ⟨.null, readsAs_null, rfl⟩
  | bool b =>
      cases b with
      | true => exact ⟨.bool true, readsAs_true, rfl⟩
      | false => exact ⟨.bool false, readsAs_false, rfl⟩
  | number d =>
      have hd : N.finite d = true := hjson
      refine ⟨.number (.other (N.text d)), ?_, ?_⟩
      · rw [stringify, if_pos hd]
        exact readsAs_number N hd
      · rw [ofJson, N.read_text hd]
  | string s => exact ⟨.string s, readsAs_string s, rfl⟩
  | array items ih =>
      cases hdistinct with
      | array hd =>
        obtain ⟨values, hvalues⟩ := exists_forall₂ fun v hv =>
          ih v hv (isJson_array.mp hjson v hv) (hd v hv)
        refine ⟨.array values, ?_, ?_⟩
        · rw [stringify, itemTexts_eq]
          exact readsAs_array (List.forall₂_map_left_iff.mpr (hvalues.imp fun _ _ h => h.1))
        · have hitems : values.map (ofJson N) = items := by
            have hback := hvalues.imp fun _ _ h => h.2.symm
            rw [← List.forall₂_eq_eq_eq, List.forall₂_map_left_iff]
            exact hback.flip.imp fun _ _ h => h.symm
          rw [ofJson, ofItems_eq, hitems]
  | record fields ih =>
      cases hdistinct with
      | record hkeys hd =>
        have hfields := isJson_record.mp hjson
        obtain ⟨values, hvalues⟩ := exists_forall₂ fun f hf => ih f hf (hfields f hf) (hd f hf)
        have hlen := hvalues.length_eq
        refine ⟨.object (List.zipWith (fun f v => (f.1, v)) fields values), ?_, ?_⟩
        · -- every property is written
          have hall : fields.filter (fun f => !f.2.isUndefined) = fields :=
            List.filter_eq_self.mpr fun f hf => by simp [defined_of_isJson (hfields f hf)]
          have hread := @readsAs_record (fields.map fun f => (f.1, stringify N f.2)) values
            (List.forall₂_map_left_iff.mpr (hvalues.imp fun _ _ h => h.1))
          rw [List.map_map, List.zipWith_map_left] at hread
          rw [stringify, fieldTexts_eq, hall]
          exact hread
        · have hpairs : (List.zipWith (fun f v => (f.1, v)) fields values).map
              (fun f => (f.1, ofJson N f.2)) = fields := by
            clear ih hjson hkeys hd hfields hlen
            induction hvalues with
            | nil => rfl
            | cons h _ ih => rw [List.zipWith_cons_cons, List.map_cons, ih, h.2]
          have hnames : (List.zipWith (fun f v => (f.1, v)) fields values).map (·.1)
              = fields.map (·.1) := by
            conv_rhs => rw [← hpairs, List.map_map]
            rfl
          rw [ofJson, ofFields_eq _ _ (by rw [List.map_nil, List.nil_append, hnames]; exact hkeys),
            List.nil_append, hpairs]

theorem ReadsAs.parse_eq {text : List Char} {j : JsonText.JsValue} (h : ReadsAs text j) :
    parse N text = some (ofJson N j) := by
  have hv := h.value_eq (text.length + 1) [] (by omega) (fun c hc => by cases hc)
  rw [List.append_nil] at hv
  rw [parse, JsonText.parse, hv]
  rfl

/-- What is a JSON value is read back as it was written. -/
theorem parse_stringify {v : Js N.Double} (hjson : isJson N v = true) (hdistinct : Distinct v) :
    parse N (stringify N v) = some v := by
  obtain ⟨j, hread, hj⟩ := readsAs_stringify hjson hdistinct
  rw [hread.parse_eq, hj]

-- =========================================================== distinctness

theorem assign_keys (fields : List (JsStr × Js δ)) (k : JsStr) (v : Js δ) :
    (assign fields k v).map (·.1)
      = if k ∈ fields.map (·.1) then fields.map (·.1) else fields.map (·.1) ++ [k] := by
  unfold assign
  split
  · rw [List.map_map]
    refine List.map_congr_left fun f _ => ?_
    by_cases hf : f.1 = k
    · simp [hf]
    · simp [hf]
  · simp

theorem mem_assign {fields : List (JsStr × Js δ)} {k : JsStr} {v : Js δ} {f : JsStr × Js δ}
    (h : f ∈ assign fields k v) : f ∈ fields ∨ f = (k, v) := by
  unfold assign at h
  split at h
  · obtain ⟨x, hx, rfl⟩ := List.mem_map.mp h
    split
    · exact Or.inr rfl
    · exact Or.inl hx
  · simpa using h

/-- Assigning keeps the names apart. -/
theorem Distinct.assign {fields : List (JsStr × Js δ)} (h : Distinct (.record fields))
    {k : JsStr} {v : Js δ} (hv : Distinct v) : Distinct (.record (Js.assign fields k v)) := by
  cases h with
  | record hkeys hfields =>
    refine .record ?_ fun f hf => ?_
    · rw [assign_keys]
      split
      · exact hkeys
      · next hnew =>
          refine List.nodup_append.mpr ⟨hkeys, List.nodup_singleton k, ?_⟩
          rintro a ha b hb rfl
          exact hnew (List.mem_singleton.mp hb ▸ ha)
    · obtain hf | rfl := mem_assign hf
      · exact hfields f hf
      · exact hv

mutual

/-- What is parsed has no name twice. -/
theorem distinct_ofJson : ∀ j : JsonText.JsValue, Distinct (ofJson N j)
  | .null => .null
  | .bool b => .bool b
  | .number (.integer _) => .number _
  | .number (.other _) => .number _
  | .string s => .string s
  | .array items => by
      rw [ofJson]
      exact .array (distinct_ofItems items)
  | .object fields => by
      rw [ofJson]
      exact distinct_ofFields fields (.record List.nodup_nil (by simp))

theorem distinct_ofItems : ∀ items : List JsonText.JsValue, ∀ v ∈ ofItems N items, Distinct v
  | [] => by simp [ofItems]
  | j :: items => by
      rw [ofItems]
      exact List.forall_mem_cons.mpr ⟨distinct_ofJson j, distinct_ofItems items⟩

theorem distinct_ofFields : ∀ fields : List (JsStr × JsonText.JsValue),
    ∀ {acc : List (JsStr × Js N.Double)}, Distinct (.record acc) →
      Distinct (.record (ofFields N fields acc))
  | [], _, h => h
  | (k, j) :: fields, _, h => by
      rw [ofFields]
      exact distinct_ofFields fields (h.assign (distinct_ofJson j))

end

/-- Entries with different names are the properties. -/
theorem fromEntries_eq {entries : List (JsStr × Js δ)} (h : (entries.map (·.1)).Nodup) :
    fromEntries entries = .record entries := by
  have hfold : ∀ (rest acc : List (JsStr × Js δ)), (acc.map (·.1) ++ rest.map (·.1)).Nodup →
      rest.foldl (fun fields e => assign fields e.1 e.2) acc = acc ++ rest := by
    intro rest
    induction rest with
    | nil => simp
    | cons e rest ih =>
        intro acc hkeys
        have hnew : e.1 ∉ acc.map (·.1) := by
          intro hmem
          rw [List.map_cons, List.nodup_append] at hkeys
          exact hkeys.2.2 e.1 hmem e.1 List.mem_cons_self rfl
        rw [List.foldl_cons, assign, if_neg hnew, ih]
        · simp
        · simpa using hkeys
  rw [fromEntries, hfold entries [] (by simpa using h), List.nil_append]

theorem distinct_fromEntries {entries : List (JsStr × Js δ)} (h : ∀ e ∈ entries, e.2.Distinct) :
    (fromEntries entries).Distinct := by
  have hfold : ∀ (rest acc : List (JsStr × Js δ)), (∀ e ∈ rest, e.2.Distinct) →
      Distinct (.record acc) →
      Distinct (.record (rest.foldl (fun fields e => assign fields e.1 e.2) acc)) := by
    intro rest
    induction rest with
    | nil => exact fun _ _ hacc => hacc
    | cons e rest ih =>
        intro acc hrest hacc
        exact ih _ (fun e' he' => hrest e' (List.mem_cons_of_mem _ he'))
          (hacc.assign (hrest e List.mem_cons_self))
  exact hfold entries [] h (.record List.nodup_nil (by simp))

theorem distinct_parse {text : List Char} {v : Js N.Double} (h : parse N text = some v) :
    Distinct v := by
  obtain ⟨j, -, rfl⟩ := Option.map_eq_some_iff.mp h
  exact distinct_ofJson j

-- ============================================================ properties

/-- A text starts with the units of one character only. -/
theorem units_append_inj {c d : Char} {x y : JsStr}
    (h : JsonText.units c ++ x = JsonText.units d ++ y) : c = d ∧ x = y := by
  have hvalid : ∀ c : Char, c.toNat < 0xD800 ∨ (0xDFFF < c.toNat ∧ c.toNat < 0x110000) :=
    fun c => c.valid
  have hofNat : ∀ n < 0x10000, (UInt16.ofNat n).toNat = n := fun n hn => by
    simp [Nat.mod_eq_of_lt hn]
  have hc := hvalid c
  have hd := hvalid d
  suffices hnat : c.toNat = d.toNat by
    obtain rfl := Char.toNat_inj.mp hnat
    exact ⟨rfl, List.append_cancel_left h⟩
  unfold JsonText.units at h
  split at h
  · next hsmall =>
      split at h
      · next hsmall' =>
          have h₁ := congrArg UInt16.toNat (List.cons.inj h).1
          rwa [hofNat _ hsmall, hofNat _ hsmall'] at h₁
      · next hlarge =>
          have h₁ := congrArg UInt16.toNat (List.cons.inj h).1
          rw [hofNat _ hsmall, hofNat _ (by omega)] at h₁
          omega
  · next hlarge =>
      split at h
      · next hsmall =>
          have h₁ := congrArg UInt16.toNat (List.cons.inj h).1
          rw [hofNat _ hsmall, hofNat _ (by omega)] at h₁
          omega
      · next hlarge' =>
          have h₁ := congrArg UInt16.toNat (List.cons.inj h).1
          have h₂ := congrArg UInt16.toNat (List.cons.inj (List.cons.inj h).2).1
          rw [hofNat _ (by omega), hofNat _ (by omega)] at h₁ h₂
          omega

theorem jsString_injective {s t : List Char} (h : JsonText.jsString s = JsonText.jsString t) :
    s = t := by
  have hne : ∀ c x, JsonText.units c ++ x ≠ [] := by
    intro c x
    unfold JsonText.units
    split
    · simp
    · simp
  induction s generalizing t with
  | nil =>
      cases t with
      | nil => rfl
      | cons d t => exact absurd h.symm (hne d _)
  | cons c s ih =>
      cases t with
      | nil => exact absurd h (hne c _)
      | cons d t =>
          obtain ⟨rfl, hrest⟩ := units_append_inj h
          rw [ih hrest]

@[simp] theorem js_inj {s t : String} : js s = js t ↔ s = t := by
  refine ⟨fun h => ?_, congrArg js⟩
  exact String.toList_inj.mp (jsString_injective h)

@[simp] theorem field_nil (k : JsStr) : field ([] : List (JsStr × Js δ)) k = .undefined := rfl

theorem field_cons (k k' : JsStr) (v : Js δ) (fields : List (JsStr × Js δ)) :
    field ((k', v) :: fields) k = if k' = k then v else field fields k := by
  unfold field
  by_cases h : k' = k
  · simp [h]
  · simp [h]

theorem field_append (xs ys : List (JsStr × Js δ)) (k : JsStr) :
    field (xs ++ ys) k = if k ∈ xs.map (·.1) then field xs k else field ys k := by
  induction xs with
  | nil => simp
  | cons f xs ih =>
      obtain ⟨k', v⟩ := f
      rw [List.cons_append, field_cons, field_cons, ih]
      by_cases h : k' = k
      · simp [h]
      · have hmem : k ∈ List.map (·.1) ((k', v) :: xs) ↔ k ∈ List.map (·.1) xs := by
          simp [Ne.symm h]
        simp only [hmem, if_neg h]

theorem eq_undefined {v : Js δ} (h : v.isUndefined = true) : v = .undefined := by
  cases v with
  | undefined => rfl
  | _ => cases h

@[simp] theorem ite_undefined (v : Js δ) :
    (if v.isUndefined = true then .undefined else v) = v := by
  split
  · next h => exact (eq_undefined h).symm
  · rfl

theorem field_optional_append (k k' : JsStr) (v : Js δ) (rest : List (JsStr × Js δ)) :
    field (optional k' v ++ rest) k
      = if k' = k then if v.isUndefined = true then field rest k else v else field rest k := by
  unfold optional
  by_cases h : v.isUndefined = true
  · simp [h]
  · simp [h, field_cons]

theorem field_optional (k k' : JsStr) (v : Js δ) :
    field (optional k' v) k = if k' = k then v else .undefined := by
  have h := field_optional_append k k' v []
  rw [List.append_nil] at h
  rw [h, field_nil, ite_undefined]

theorem field_ite (c : Prop) [Decidable c] (k k' : JsStr) (v : Js δ) :
    field (if c then [] else [(k', v)]) k
      = if k' = k then if c then .undefined else v else .undefined := by
  by_cases h : c
  · simp [h]
  · simp [h, field_cons]

@[simp] theorem get_record (fields : List (JsStr × Js δ)) (k : JsStr) :
    (Js.record fields).get k = field fields k := rfl

theorem field_of_mem {fields : List (JsStr × Js δ)} (hkeys : (fields.map (·.1)).Nodup)
    {f : JsStr × Js δ} (hf : f ∈ fields) : field fields f.1 = f.2 := by
  induction fields with
  | nil => cases hf
  | cons g fields ih =>
      obtain ⟨k, v⟩ := g
      rw [List.map_cons, List.nodup_cons] at hkeys
      rw [field_cons]
      obtain rfl | hmem := List.mem_cons.mp hf
      · simp
      · have hne : k ≠ f.1 := by
          rintro rfl
          exact hkeys.1 (List.mem_map.mpr ⟨f, hmem, rfl⟩)
        rw [if_neg hne, ih hkeys.2 hmem]

/-- Nothing is found that is not there. -/
theorem mem_of_field {fields : List (JsStr × Js δ)} {k : JsStr}
    (h : (field fields k).isUndefined = false) : (k, field fields k) ∈ fields := by
  induction fields with
  | nil => cases h
  | cons f fields ih =>
      obtain ⟨k', v⟩ := f
      rw [field_cons] at h ⊢
      by_cases hk : k' = k
      · simp [hk]
      · rw [if_neg hk] at h ⊢
        exact List.mem_cons_of_mem _ (ih h)

-- ================================================================= size

/-- The bytes of a text. -/
def size (text : List Char) : Nat := (Utf8.encode text).length

theorem size_append (x y : List Char) : size (x ++ y) = size x + size y := by
  simp [size, Utf8.encode]

@[simp] theorem size_nil : size [] = 0 := rfl

theorem size_cons (c : Char) (text : List Char) : size (c :: text) = size [c] + size text := by
  rw [← size_append]
  rfl

/-- The bytes of a value. -/
def bytes (N : Numerals) (v : Js N.Double) : Nat := size (stringify N v)

/-- The bytes of a property and a comma. -/
def entryWeight (N : Numerals) (k : JsStr) (v : Js N.Double) : Nat :=
  if v.isUndefined = true then 0 else size (quote k) + 1 + bytes N v + 1

/-- The bytes of a list of properties, a comma after each. -/
def weight (N : Numerals) (fields : List (JsStr × Js N.Double)) : Nat :=
  (fields.map fun f => entryWeight N f.1 f.2).sum

theorem weight_cons (k : JsStr) (v : Js N.Double) (fields : List (JsStr × Js N.Double)) :
    weight N ((k, v) :: fields) = entryWeight N k v + weight N fields := rfl

theorem weight_append (xs ys : List (JsStr × Js N.Double)) :
    weight N (xs ++ ys) = weight N xs + weight N ys := by
  simp [weight]

/-- Leaving an `undefined` out changes nothing. -/
theorem weight_optional (k : JsStr) (v : Js N.Double) :
    weight N (optional k v) = entryWeight N k v := by
  unfold optional entryWeight
  split
  · rfl
  · next h => simp [weight, entryWeight, h]

theorem entryWeight_le {k : JsStr} {v w : Js N.Double}
    (hu : v.isUndefined = true → w.isUndefined = true) (hb : bytes N w ≤ bytes N v) :
    entryWeight N k w ≤ entryWeight N k v := by
  unfold entryWeight
  by_cases hw : w.isUndefined = true
  · rw [if_pos hw]
    exact Nat.zero_le _
  · have hv : ¬ v.isUndefined = true := fun h => hw (hu h)
    rw [if_neg hw, if_neg hv]
    omega

theorem size_commas (texts : List (List Char)) :
    size (commas texts) + 1 = max 1 (texts.map fun t => size t + 1).sum := by
  induction texts with
  | nil => rfl
  | cons t texts ih =>
      cases texts with
      | nil => simp [commas]
      | cons t' texts =>
          have hcomma : size [','] = 1 := by decide
          rw [commas, size_append, size_cons, hcomma, List.map_cons, List.sum_cons]
          rw [List.map_cons, List.sum_cons] at ih ⊢
          omega

theorem bytes_array (items : List (Js N.Double)) :
    bytes N (.array items) = 1 + max 1 (items.map fun v => bytes N v + 1).sum := by
  have hopen : size ['['] = 1 := by decide
  have hclose : size [']'] = 1 := by decide
  rw [bytes, stringify, itemTexts_eq, List.cons_append, size_cons, size_append, hopen, hclose,
    size_commas, List.map_map]
  rfl

theorem bytes_record (fields : List (JsStr × Js N.Double)) :
    bytes N (.record fields) = 1 + max 1 (weight N fields) := by
  have hopen : size ['{'] = 1 := by decide
  have hclose : size ['}'] = 1 := by decide
  have hcolon : size [':'] = 1 := by decide
  have hweight : ((fieldTexts N fields).map fun t => size t + 1).sum = weight N fields := by
    induction fields with
    | nil => rfl
    | cons f fields ih =>
        obtain ⟨k, v⟩ := f
        rw [fieldTexts, weight_cons, entryWeight]
        split
        · rw [ih, Nat.zero_add]
        · rw [List.map_cons, List.sum_cons, ih, size_append, size_cons, hcolon, bytes]
          omega
  rw [bytes, stringify, List.cons_append, size_cons, size_append, hopen, hclose,
    size_commas, hweight]

/-- Some properties weigh no more than all. -/
theorem weight_select {keys : List JsStr} (hkeys : keys.Nodup)
    (fields : List (JsStr × Js N.Double)) :
    (keys.map fun k => entryWeight N k (field fields k)).sum ≤ weight N fields := by
  induction fields generalizing keys with
  | nil => simp [entryWeight, isUndefined]
  | cons f fields ih =>
      obtain ⟨k, v⟩ := f
      rw [weight_cons]
      by_cases hk : k ∈ keys
      · -- the first property counts once, for its name
        have hperm := List.perm_cons_erase hk
        have hnodup := hperm.nodup_iff.mp hkeys
        rw [List.nodup_cons] at hnodup
        rw [(hperm.map _).sum_eq, List.map_cons, List.sum_cons, field_cons, if_pos rfl]
        refine Nat.add_le_add_left ?_ _
        refine le_trans (le_of_eq ?_) (ih hnodup.2)
        congr 1
        refine List.map_congr_left fun k' hk' => ?_
        rw [field_cons, if_neg]
        rintro rfl
        exact hnodup.1 hk'
      · refine le_trans (le_of_eq ?_) (le_trans (ih hkeys) (Nat.le_add_left _ _))
        congr 1
        refine List.map_congr_left fun k' hk' => ?_
        rw [field_cons, if_neg]
        rintro rfl
        exact hk hk'

-- ================================================================= plain

/-- A unit JSON writes as it is, in one byte. -/
def plainUnit (u : UInt16) : Bool := 0x20 ≤ u.toNat && u.toNat < 0x7F && u != 34 && u != 92

theorem quoteUnit_plain {u : UInt16} (h : plainUnit u = true) :
    quoteUnit u = [Char.ofNat u.toNat] ∧ (Char.ofNat u.toNat).toNat = u.toNat
      ∧ isHigh u = false := by
  simp only [plainUnit, Bool.and_eq_true, decide_eq_true_eq, bne_iff_ne, ne_eq] at h
  obtain ⟨⟨⟨hlow, hhigh⟩, hquote⟩, hslash⟩ := h
  have hnat : (Char.ofNat u.toNat).toNat = u.toNat := toNat_ofNat (by omega)
  have hsur : isHigh u = false ∧ isLow u = false := by
    simp only [isHigh, isLow, Bool.and_eq_false_iff, decide_eq_false_iff_not]
    omega
  have hne : ∀ c : Char, c.toNat ≠ u.toNat → Char.ofNat u.toNat ≠ c := by
    rintro c hc rfl
    exact hc hnat
  have hquote' : u.toNat ≠ 34 := fun heq => hquote (UInt16.toNat_inj.mp heq)
  have hslash' : u.toNat ≠ 92 := fun heq => hslash (UInt16.toNat_inj.mp heq)
  refine ⟨?_, hnat, hsur.1⟩
  rw [quoteUnit, hsur.1, hsur.2, if_neg (by decide), JsonText.escape,
    if_neg (hne '"' (Ne.symm hquote')), if_neg (hne '\\' (Ne.symm hslash')),
    if_neg (hne '\n' (by show 10 ≠ _; omega)), if_neg (hne '\r' (by show 13 ≠ _; omega)),
    if_neg (hne '\t' (by show 9 ≠ _; omega)), if_neg (by omega), if_neg (by omega),
    if_neg (by omega)]

theorem size_plainChar {n : Nat} (h : n < 0x7F) : size [Char.ofNat n] = 1 := by
  have hall : ∀ n < 0x7F, size [Char.ofNat n] = 1 := by decide
  exact hall n h

theorem plainUnit_lt {u : UInt16} (h : plainUnit u = true) : u.toNat < 0x7F := by
  simp only [plainUnit, Bool.and_eq_true, decide_eq_true_eq] at h
  exact h.1.1.2

/-- A plain string takes its length and two quotes. -/
theorem size_quote_plain {s : JsStr} (h : ∀ u ∈ s, plainUnit u = true) :
    size (quote s) = s.length + 2 := by
  have hunits : size (quoteUnits s) = s.length := by
    fun_induction quoteUnits s with
    | case1 => rfl
    | case2 u =>
        have hu := h u List.mem_cons_self
        rw [(quoteUnit_plain hu).1, size_plainChar (plainUnit_lt hu)]
        rfl
    | case3 u l s hpair ih =>
        rw [(quoteUnit_plain (h u List.mem_cons_self)).2.2] at hpair
        cases hpair
    | case4 u l s _ ih =>
        have hu := h u List.mem_cons_self
        rw [size_append, (quoteUnit_plain hu).1, size_plainChar (plainUnit_lt hu),
          ih fun v hv => h v (List.mem_cons_of_mem u hv), List.length_cons (a := u)]
        omega
  have hquote : size ['"'] = 1 := by decide
  rw [quote, List.cons_append, size_cons, size_append, hquote, hunits]
  omega

end Js

end Mosaic.Lib
