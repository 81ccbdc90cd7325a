/-
JSON as text: what Python writes and what JavaScript reads.

# Writing

`dumps` is `json.dumps(value, ensure_ascii=False, separators=(",", ":"))`:
no blanks, control characters, quotes and backslashes escaped, everything
else as it is.

# Reading

`parse` is `JSON.parse`. A JavaScript string is a sequence of 16-bit code
units, so an escape is one unit and a character beyond the basic plane is
two; half a pair is a legal string. A number is a double: which one a
literal denotes is a parameter of the reader (`read`), and nothing here
computes with it.

# Round trip

`Reads` says that a written text is read back as a value, whatever comes
after it. It is shown for each kind of value; that of an object follows
from those of its fields.
-/
import Mosaic.Lib.Json
import Mathlib

namespace Mosaic.Lib.JsonText

-- =============================================================== writing

/-- `py_encode_basestring` of one character. -/
def escape (c : Char) : List Char :=
  if c = '"' then ['\\', '"']
  else if c = '\\' then ['\\', '\\']
  else if c = '\n' then ['\\', 'n']
  else if c = '\r' then ['\\', 'r']
  else if c = '\t' then ['\\', 't']
  else if c.toNat = 0x0C then ['\\', 'f']
  else if c.toNat = 0x08 then ['\\', 'b']
  else if c.toNat < 0x20 then
    ['\\', 'u', '0', '0', Nat.digitChar (c.toNat / 16), Nat.digitChar (c.toNat % 16)]
  else [c]

/-- A string between quotes. -/
def quote (s : String) : List Char := '"' :: s.toList.flatMap escape ++ ['"']

/-- `int.__repr__`. -/
def integer (n : Int) : List Char :=
  if n < 0 then '-' :: Nat.toDigits 10 n.natAbs else Nat.toDigits 10 n.natAbs

mutual

/-- `json.dumps`. -/
def dumps : Json → List Char
  | .null => ['n', 'u', 'l', 'l']
  | .bool true => ['t', 'r', 'u', 'e']
  | .bool false => ['f', 'a', 'l', 's', 'e']
  | .int n => integer n
  | .float spelling => spelling.toList
  | .str s => quote s
  | .arr items => '[' :: dumpsItems items ++ [']']
  | .obj fields => '{' :: dumpsFields fields ++ ['}']

def dumpsItems : List Json → List Char
  | [] => []
  | [v] => dumps v
  | v :: w :: items => dumps v ++ ',' :: dumpsItems (w :: items)

def dumpsFields : List (String × Json) → List Char
  | [] => []
  | [(k, v)] => quote k ++ ':' :: dumps v
  | (k, v) :: f :: fields => quote k ++ ':' :: dumps v ++ ',' :: dumpsFields (f :: fields)

end

-- =============================================================== reading

/-- The code units of a character. -/
def units (c : Char) : List UInt16 :=
  if c.toNat < 0x10000 then [UInt16.ofNat c.toNat]
  else [UInt16.ofNat (0xD800 + (c.toNat - 0x10000) / 0x400),
        UInt16.ofNat (0xDC00 + (c.toNat - 0x10000) % 0x400)]

/-- A text as a JavaScript string. -/
def jsString (text : List Char) : List UInt16 := text.flatMap units

/-- A double: an integer, or the literal of one that is none. -/
inductive JsNumber
  | integer (n : Int)
  | other (literal : List Char)
deriving Repr, DecidableEq

inductive JsValue
  | null
  | bool (b : Bool)
  | number (n : JsNumber)
  | string (s : List UInt16)
  | array (items : List JsValue)
  | object (fields : List (List UInt16 × JsValue))

/-- The whitespace of the grammar. -/
def blank (c : Char) : Bool := c == ' ' || c == '\t' || c == '\n' || c == '\r'

def skip (cs : List Char) : List Char := cs.dropWhile blank

def hexDigit (c : Char) : Option Nat :=
  if '0' ≤ c ∧ c ≤ '9' then some (c.toNat - '0'.toNat)
  else if 'a' ≤ c ∧ c ≤ 'f' then some (c.toNat - 'a'.toNat + 10)
  else if 'A' ≤ c ∧ c ≤ 'F' then some (c.toNat - 'A'.toNat + 10)
  else none

/-- The unit of a four-digit escape. -/
def hexUnit (a b c d : Char) : Option UInt16 := do
  let a ← hexDigit a
  let b ← hexDigit b
  let c ← hexDigit c
  let d ← hexDigit d
  return UInt16.ofNat (((a * 16 + b) * 16 + c) * 16 + d)

/-- The unit of a two-character escape. -/
def simpleEscape (c : Char) : Option UInt16 :=
  if c = '"' ∨ c = '\\' ∨ c = '/' then some (UInt16.ofNat c.toNat)
  else if c = 'b' then some 0x08
  else if c = 'f' then some 0x0C
  else if c = 'n' then some 0x0A
  else if c = 'r' then some 0x0D
  else if c = 't' then some 0x09
  else none

/-- A string after its opening quote. -/
def stringBody : List Char → Option (List UInt16 × List Char)
  | [] => none
  | '"' :: rest => some ([], rest)
  | '\\' :: 'u' :: a :: b :: c :: d :: rest => do
      let unit ← hexUnit a b c d
      let (s, rest) ← stringBody rest
      return (unit :: s, rest)
  | '\\' :: e :: rest => do
      let unit ← simpleEscape e
      let (s, rest) ← stringBody rest
      return (unit :: s, rest)
  | c :: rest =>
      if c = '\\' ∨ c.toNat < 0x20 then none
      else do
        let (s, rest) ← stringBody rest
        return (units c ++ s, rest)

def integerPart : List Char → Option (List Char × List Char)
  | '0' :: rest => some (['0'], rest)
  | cs =>
      let digits := cs.takeWhile Char.isDigit
      if digits = [] then none else some (digits, cs.dropWhile Char.isDigit)

def fractionPart : List Char → Option (List Char × List Char)
  | '.' :: rest =>
      let digits := rest.takeWhile Char.isDigit
      if digits = [] then none else some ('.' :: digits, rest.dropWhile Char.isDigit)
  | cs => some ([], cs)

def exponentPart : List Char → Option (List Char × List Char)
  | [] => some ([], [])
  | c :: rest =>
      if c = 'e' ∨ c = 'E' then
        let sign := (rest.take 1).filter fun s => s == '+' || s == '-'
        let rest := rest.drop sign.length
        let digits := rest.takeWhile Char.isDigit
        if digits = [] then none
        else some (c :: sign ++ digits, rest.dropWhile Char.isDigit)
      else some ([], c :: rest)

/-- The literal of a number. -/
def numberLiteral (cs : List Char) : Option (List Char × List Char) := do
  let sign := (cs.take 1).filter fun s => s == '-'
  let (whole, cs) ← integerPart (cs.drop sign.length)
  let (fraction, cs) ← fractionPart cs
  let (exponent, cs) ← exponentPart cs
  return (sign ++ whole ++ fraction ++ exponent, cs)

section

variable (read : List Char → JsNumber)

mutual

/-- A value; the fuel bounds the depth, and every level takes a
character. -/
def value : Nat → List Char → Option (JsValue × List Char)
  | 0, _ => none
  | fuel + 1, cs =>
      match skip cs with
      | '"' :: rest => do
          let (s, rest) ← stringBody rest
          return (.string s, rest)
      | '{' :: rest =>
          match skip rest with
          | '}' :: rest => some (.object [], rest)
          | rest => do
              let (fields, rest) ← members fuel rest
              return (.object fields, rest)
      | '[' :: rest =>
          match skip rest with
          | ']' :: rest => some (.array [], rest)
          | rest => do
              let (items, rest) ← elements fuel rest
              return (.array items, rest)
      | 't' :: 'r' :: 'u' :: 'e' :: rest => some (.bool true, rest)
      | 'f' :: 'a' :: 'l' :: 's' :: 'e' :: rest => some (.bool false, rest)
      | 'n' :: 'u' :: 'l' :: 'l' :: rest => some (.null, rest)
      | cs => do
          let (literal, rest) ← numberLiteral cs
          return (.number (read literal), rest)

def elements : Nat → List Char → Option (List JsValue × List Char)
  | 0, _ => none
  | fuel + 1, cs => do
      let (v, rest) ← value fuel cs
      match skip rest with
      | ',' :: rest => do
          let (items, rest) ← elements fuel rest
          return (v :: items, rest)
      | ']' :: rest => return ([v], rest)
      | _ => none

def members : Nat → List Char → Option (List (List UInt16 × JsValue) × List Char)
  | 0, _ => none
  | fuel + 1, cs =>
      match skip cs with
      | '"' :: rest => do
          let (key, rest) ← stringBody rest
          match skip rest with
          | ':' :: rest => do
              let (v, rest) ← value fuel rest
              match skip rest with
              | ',' :: rest => do
                  let (fields, rest) ← members fuel rest
                  return ((key, v) :: fields, rest)
              | '}' :: rest => return ([(key, v)], rest)
              | _ => none
          | _ => none
      | _ => none

end

/-- `JSON.parse`; none is a `SyntaxError`. -/
def parse (text : List Char) : Option JsValue := do
  let (v, rest) ← value read (text.length + 1) text
  if skip rest = [] then some v else none

end

-- =============================================================== strings

theorem hexDigit_digitChar : ∀ d < 16, hexDigit (Nat.digitChar d) = some d := by decide

/-- An escaped character is read as its units. -/
theorem stringBody_escape (c : Char) (rest : List Char) :
    stringBody (escape c ++ rest)
      = (stringBody rest).map fun p => (units c ++ p.1, p.2) := by
  unfold escape
  split
  · next h =>
      subst h
      cases hb : stringBody rest <;> simp [stringBody, simpleEscape, units, hb]
  split
  · next h =>
      subst h
      cases hb : stringBody rest <;> simp [stringBody, simpleEscape, units, hb]
  split
  · next h =>
      subst h
      cases hb : stringBody rest <;> simp [stringBody, simpleEscape, units, hb]
  split
  · next h =>
      subst h
      cases hb : stringBody rest <;> simp [stringBody, simpleEscape, units, hb]
  split
  · next h =>
      subst h
      cases hb : stringBody rest <;> simp [stringBody, simpleEscape, units, hb]
  split
  · next h =>
      cases hb : stringBody rest <;> simp [stringBody, simpleEscape, units, hb, h]
  split
  · next h =>
      cases hb : stringBody rest <;> simp [stringBody, simpleEscape, units, hb, h]
  split
  · next h =>
      have h0 : hexDigit '0' = some 0 := by decide
      have h1 := hexDigit_digitChar (c.toNat / 16) (by omega)
      have h2 := hexDigit_digitChar (c.toNat % 16) (by omega)
      have hval : ((0 * 16 + 0) * 16 + c.toNat / 16) * 16 + c.toNat % 16 = c.toNat := by
        omega
      have hunit : hexUnit '0' '0' (Nat.digitChar (c.toNat / 16))
          (Nat.digitChar (c.toNat % 16)) = some (UInt16.ofNat c.toNat) := by
        rw [hexUnit, h0, h1, h2]
        exact congrArg (fun n => some (UInt16.ofNat n)) hval
      have hsmall : c.toNat < 65536 := by omega
      cases hb : stringBody rest <;> simp [stringBody, hunit, units, hb, hsmall]
  · next hs _ _ _ _ _ h =>
      cases hb : stringBody rest <;> simp [stringBody, hs, h, hb]

theorem stringBody_quote (s : List Char) (rest : List Char) :
    stringBody (s.flatMap escape ++ '"' :: rest) = some (jsString s, rest) := by
  induction s with
  | nil => rfl
  | cons c s ih =>
      rw [List.flatMap_cons, List.append_assoc, stringBody_escape, ih]
      rfl

-- =============================================================== numbers

/-- The decimal digits of a number start with a zero only for zero. -/
theorem toDigits_head {n : Nat} (hn : 0 < n) : (Nat.toDigits 10 n).head? ≠ some '0' := by
  induction n using Nat.strongRecOn with
  | ind n ih =>
      rw [Nat.toDigits_eq_if (by omega)]
      split
      · next hlt =>
          have hall : ∀ d < 10, 0 < d → [Nat.digitChar d].head? ≠ some '0' := by decide
          exact hall n hlt hn
      · next hge =>
          have hne : Nat.toDigits 10 (n / 10) ≠ [] := Nat.toDigits_ne_nil
          rw [List.head?_append_of_ne_nil _ hne]
          exact ih (n / 10) (by omega) (by omega)

theorem isDigit_toDigits {n : Nat} {c : Char} (h : c ∈ Nat.toDigits 10 n) :
    c.isDigit = true :=
  Nat.isDigit_of_mem_toDigits (by omega) (by omega) h

/-- Nothing that would make a number longer. -/
def Ends (rest : List Char) : Prop :=
  ∀ c, rest.head? = some c → c.isDigit = false ∧ c ≠ '.' ∧ c ≠ 'e' ∧ c ≠ 'E'

theorem span_digits {digits rest : List Char} (hd : ∀ c ∈ digits, c.isDigit = true)
    (hrest : Ends rest) :
    (digits ++ rest).takeWhile Char.isDigit = digits
      ∧ (digits ++ rest).dropWhile Char.isDigit = rest := by
  have hnone : rest.takeWhile Char.isDigit = [] ∧ rest.dropWhile Char.isDigit = rest := by
    cases rest with
    | nil => exact ⟨rfl, rfl⟩
    | cons c rest =>
        have hc := (hrest c rfl).1
        simp [hc]
  rw [List.takeWhile_append_of_pos hd, List.dropWhile_append_of_pos hd, hnone.1, hnone.2]
  simp

theorem integerPart_digits (n : Nat) {rest : List Char} (hrest : Ends rest) :
    integerPart (Nat.toDigits 10 n ++ rest) = some (Nat.toDigits 10 n, rest) := by
  obtain rfl | hn := Nat.eq_zero_or_pos n
  · rfl
  · obtain ⟨htake, hdrop⟩ := span_digits
      (fun c (hc : c ∈ Nat.toDigits 10 n) => isDigit_toDigits hc) hrest
    have hhead := toDigits_head hn
    have hne : Nat.toDigits 10 n ≠ [] := Nat.toDigits_ne_nil
    unfold integerPart
    split
    · next heq =>
        have hzero : (Nat.toDigits 10 n).head? = some '0' := by
          rw [← List.head?_append_of_ne_nil _ hne, heq]
          rfl
        exact absurd hzero hhead
    · simp only [htake, hdrop, if_neg hne]

theorem fractionPart_ends {rest : List Char} (hrest : Ends rest) :
    fractionPart rest = some ([], rest) := by
  unfold fractionPart
  split
  · exact absurd rfl (hrest '.' rfl).2.1
  · rfl

theorem exponentPart_ends {rest : List Char} (hrest : Ends rest) :
    exponentPart rest = some ([], rest) := by
  cases rest with
  | nil => rfl
  | cons c rest =>
      have hc := (hrest c rfl).2.2
      simp [exponentPart, hc]

/-- The digits of a number are read as a literal. -/
theorem numberLiteral_digits (n : Nat) {rest : List Char} (hrest : Ends rest) :
    numberLiteral (Nat.toDigits 10 n ++ rest) = some (Nat.toDigits 10 n, rest) := by
  have hsign : ((Nat.toDigits 10 n ++ rest).take 1).filter (fun s => s == '-') = [] := by
    cases hdigits : Nat.toDigits 10 n with
    | nil => exact absurd hdigits Nat.toDigits_ne_nil
    | cons c digits =>
        have hc : c.isDigit = true := isDigit_toDigits (n := n) (by rw [hdigits]; simp)
        have hne : c ≠ '-' := by
          rintro rfl
          cases hc
        simp [hne]
  simp only [numberLiteral, hsign, List.length_nil, List.drop_zero,
    integerPart_digits n hrest, fractionPart_ends hrest, exponentPart_ends hrest,
    Option.bind_eq_bind, Option.bind_some, List.nil_append, List.append_nil]
  rfl

-- ================================================================ values

/-- The text is read as the value, whatever follows, and stays on one
line. -/
structure Reads (read : List Char → JsNumber) (text : List Char) (v : JsValue) : Prop where
  clean : ∀ c ∈ text, 0x20 ≤ c.toNat
  value_eq : ∀ fuel rest, text.length < fuel → Ends rest →
    value read fuel (text ++ rest) = some (v, rest)

variable {read : List Char → JsNumber}

theorem skip_of_not_blank {c : Char} (h : blank c = false) (rest : List Char) :
    skip (c :: rest) = c :: rest := by
  simp [skip, h]

theorem ends_cons {c : Char} (h : c.isDigit = false ∧ c ≠ '.' ∧ c ≠ 'e' ∧ c ≠ 'E')
    (rest : List Char) : Ends (c :: rest) := by
  intro c' hc'
  obtain rfl := Option.some.inj hc'
  exact h

theorem escape_clean {c c' : Char} (h : c' ∈ escape c) : 0x20 ≤ c'.toNat := by
  have hdigit : ∀ d < 16, 0x20 ≤ (Nat.digitChar d).toNat := by decide
  have hlit : ∀ x ∈ ['\\', '"', 'n', 'r', 't', 'f', 'b', 'u', '0'], 0x20 ≤ x.toNat :=
    List.all_iff_forall_prop.mp (by decide)
  unfold escape at h
  split at h
  · exact hlit c' (by simp at h; rcases h with rfl | rfl <;> simp)
  split at h
  · exact hlit c' (by simp at h; rcases h with rfl | rfl <;> simp)
  split at h
  · exact hlit c' (by simp at h; rcases h with rfl | rfl <;> simp)
  split at h
  · exact hlit c' (by simp at h; rcases h with rfl | rfl <;> simp)
  split at h
  · exact hlit c' (by simp at h; rcases h with rfl | rfl <;> simp)
  split at h
  · exact hlit c' (by simp at h; rcases h with rfl | rfl <;> simp)
  split at h
  · exact hlit c' (by simp at h; rcases h with rfl | rfl <;> simp)
  split at h
  · next hsmall =>
      simp only [List.mem_cons, List.not_mem_nil, or_false] at h
      obtain h | h | h | h | h | h := h
      · exact hlit c' (by simp [h])
      · exact hlit c' (by simp [h])
      · exact hlit c' (by simp [h])
      · exact hlit c' (by simp [h])
      · rw [h]
        exact hdigit _ (by omega)
      · rw [h]
        exact hdigit _ (by omega)
  · next hlarge =>
      rw [List.mem_singleton] at h
      rw [h]
      omega

theorem quote_clean {s : String} {c : Char} (h : c ∈ quote s) : 0x20 ≤ c.toNat := by
  simp only [quote, List.cons_append, List.mem_cons, List.mem_append, List.mem_flatMap,
    List.not_mem_nil, or_false] at h
  obtain rfl | ⟨x, -, hx⟩ | rfl := h
  · decide
  · exact escape_clean hx
  · decide

theorem reads_string (s : String) :
    Reads read (dumps (.str s)) (.string (jsString s.toList)) where
  clean := by
    intro c hc
    rw [dumps] at hc
    exact quote_clean hc
  value_eq := by
    intro fuel rest hfuel _
    obtain ⟨fuel, rfl⟩ := Nat.exists_eq_succ_of_ne_zero (by omega : fuel ≠ 0)
    have htext : dumps (.str s) ++ rest
        = '"' :: (s.toList.flatMap escape ++ '"' :: rest) := by
      simp [dumps, quote]
    rw [htext]
    simp only [value, skip_of_not_blank (show blank '"' = false by decide),
      stringBody_quote]
    rfl

theorem reads_null : Reads read (dumps .null) .null where
  clean := by
    rw [dumps]
    exact List.all_iff_forall_prop.mp (by decide)
  value_eq := by
    intro fuel rest hfuel _
    obtain ⟨fuel, rfl⟩ := Nat.exists_eq_succ_of_ne_zero (by omega : fuel ≠ 0)
    rw [dumps]
    rfl

theorem reads_bool (b : Bool) : Reads read (dumps (.bool b)) (.bool b) where
  clean := by
    cases b with
    | true =>
        rw [dumps]
        exact List.all_iff_forall_prop.mp (by decide)
    | false =>
        rw [dumps]
        exact List.all_iff_forall_prop.mp (by decide)
  value_eq := by
    intro fuel rest hfuel _
    obtain ⟨fuel, rfl⟩ := Nat.exists_eq_succ_of_ne_zero (by omega : fuel ≠ 0)
    cases b with
    | true =>
        rw [dumps]
        rfl
    | false =>
        rw [dumps]
        rfl

theorem digit_clean {c : Char} (h : c.isDigit = true) : 0x20 ≤ c.toNat := by
  simp only [Char.isDigit, Bool.and_eq_true, decide_eq_true_eq] at h
  have h0 : (48 : UInt32).toNat ≤ c.val.toNat := UInt32.le_iff_toNat_le.mp h.1
  have : (48 : UInt32).toNat = 48 := rfl
  show 0x20 ≤ c.val.toNat
  omega

theorem dumps_nat (n : Nat) : dumps (.int n) = Nat.toDigits 10 n := by
  rw [dumps, integer, if_neg (by omega)]
  rfl

theorem reads_nat (n : Nat) :
    Reads read (dumps (.int n)) (.number (read (Nat.toDigits 10 n))) where
  clean := by
    intro c hc
    rw [dumps_nat] at hc
    exact digit_clean (isDigit_toDigits hc)
  value_eq := by
    intro fuel rest hfuel hrest
    obtain ⟨fuel, rfl⟩ := Nat.exists_eq_succ_of_ne_zero (by omega : fuel ≠ 0)
    rw [dumps_nat]
    have hnumber := numberLiteral_digits n hrest
    cases hdigits : Nat.toDigits 10 n with
    | nil => exact absurd hdigits Nat.toDigits_ne_nil
    | cons c digits =>
        have hc : c.isDigit = true := isDigit_toDigits (n := n) (by rw [hdigits]; simp)
        have hblank : blank c = false := by
          by_contra hb
          simp only [blank, Bool.or_eq_true, beq_iff_eq, Bool.not_eq_false] at hb
          obtain ((rfl | rfl) | rfl) | rfl := hb <;> cases hc
        rw [hdigits] at hnumber
        rw [value, List.cons_append, skip_of_not_blank hblank]
        -- no other kind of value starts with a digit
        have hother : ∀ {x xs}, c :: (digits ++ rest) = x :: xs → x.isDigit = true :=
          fun heq => (List.cons.inj heq).1 ▸ hc
        split
        · next heq => cases hother heq
        · next heq => cases hother heq
        · next heq => cases hother heq
        · next heq => cases hother heq
        · next heq => cases hother heq
        · next heq => cases hother heq
        · rw [← List.cons_append, hnumber]
          rfl

-- =============================================================== objects

/-- The fields of an object, read one by one. -/
def readFields (fields : List (String × Json)) (values : List JsValue) :
    List (List UInt16 × JsValue) :=
  List.zipWith (fun f v => (jsString f.1.toList, v)) fields values

/-- One field, up to what follows it. -/
theorem members_field {fuel : Nat} {k : String} {j : Json} {v : JsValue} {c : Char}
    {rest : List Char} (hv : Reads read (dumps j) v)
    (hfuel : (dumps j).length < fuel)
    (hc : c.isDigit = false ∧ c ≠ '.' ∧ c ≠ 'e' ∧ c ≠ 'E') (hblank : blank c = false) :
    members read (fuel + 1) (quote k ++ ':' :: (dumps j ++ c :: rest))
      = match c :: rest with
        | ',' :: rest => do
            let (fields, rest) ← members read fuel rest
            return ((jsString k.toList, v) :: fields, rest)
        | '}' :: rest => some ([(jsString k.toList, v)], rest)
        | _ => none := by
  have htext : quote k ++ ':' :: (dumps j ++ c :: rest)
      = '"' :: (k.toList.flatMap escape ++ '"' :: ':' :: (dumps j ++ c :: rest)) := by
    simp [quote]
  rw [htext, members, skip_of_not_blank (by decide)]
  simp only [stringBody_quote, Option.bind_eq_bind, Option.bind_some,
    skip_of_not_blank (show blank ':' = false by decide),
    hv.value_eq fuel _ hfuel (ends_cons hc rest), skip_of_not_blank hblank]
  rfl

theorem members_fields {fields : List (String × Json)} {values : List JsValue}
    (hne : fields ≠ []) (h : List.Forall₂ (fun f v => Reads read (dumps f.2) v) fields values)
    {fuel : Nat} {rest : List Char} (hfuel : (dumpsFields fields).length < fuel) :
    members read fuel (dumpsFields fields ++ '}' :: rest)
      = some (readFields fields values, rest) := by
  induction h generalizing fuel with
  | nil => exact absurd rfl hne
  | @cons f v fields values hv hrest ih =>
      obtain ⟨k, j⟩ := f
      obtain ⟨fuel, rfl⟩ := Nat.exists_eq_succ_of_ne_zero (by omega : fuel ≠ 0)
      cases fields with
      | nil =>
          cases hrest
          have htext : dumpsFields [(k, j)] ++ '}' :: rest
              = quote k ++ ':' :: (dumps j ++ '}' :: rest) := by
            simp [dumpsFields]
          have hlen : (dumps j).length < fuel := by
            simp only [dumpsFields, quote, List.length_append, List.length_cons] at hfuel
            omega
          rw [htext, members_field hv hlen (by decide) (by decide)]
          rfl
      | cons g fields =>
          have htext : dumpsFields ((k, j) :: g :: fields) ++ '}' :: rest
              = quote k ++ ':' :: (dumps j
                ++ ',' :: (dumpsFields (g :: fields) ++ '}' :: rest)) := by
            simp [dumpsFields]
          have hlen : (dumps j).length < fuel
              ∧ (dumpsFields (g :: fields)).length < fuel := by
            simp only [dumpsFields, quote, List.length_append, List.length_cons] at hfuel
            omega
          rw [htext, members_field hv hlen.1 (by decide) (by decide)]
          simp only [ih (by simp) hlen.2]
          rfl

theorem dumpsFields_clean {fields : List (String × Json)}
    (h : ∀ f ∈ fields, ∀ c ∈ dumps f.2, 0x20 ≤ c.toNat) {c : Char}
    (hc : c ∈ dumpsFields fields) : 0x20 ≤ c.toNat := by
  induction fields with
  | nil => simp [dumpsFields] at hc
  | cons f fields ih =>
      obtain ⟨k, j⟩ := f
      cases fields with
      | nil =>
          simp only [dumpsFields, List.mem_append, List.mem_cons] at hc
          obtain hc | rfl | hc := hc
          · exact quote_clean hc
          · decide
          · exact h (k, j) (by simp) c hc
      | cons g fields =>
          simp only [dumpsFields, List.mem_append, List.mem_cons] at hc
          obtain (hc | rfl | hc) | rfl | hc := hc
          · exact quote_clean hc
          · decide
          · exact h (k, j) (by simp) c hc
          · decide
          · exact ih (fun f hf => h f (List.mem_cons_of_mem _ hf)) hc

theorem forall_clean {fields : List (String × Json)} {values : List JsValue}
    (h : List.Forall₂ (fun f v => Reads read (dumps f.2) v) fields values) :
    ∀ f ∈ fields, ∀ c ∈ dumps f.2, 0x20 ≤ c.toNat := by
  induction h with
  | nil => simp
  | cons hv _ ih =>
      intro f hf
      cases hf with
      | head => exact hv.clean
      | tail _ hf => exact ih f hf

/-- An object is read field by field. -/
theorem reads_object {fields : List (String × Json)} {values : List JsValue}
    (hne : fields ≠ [])
    (h : List.Forall₂ (fun f v => Reads read (dumps f.2) v) fields values) :
    Reads read (dumps (.obj fields)) (.object (readFields fields values)) where
  clean := by
    intro c hc
    simp only [dumps, List.cons_append, List.mem_cons, List.mem_append, List.not_mem_nil,
      or_false] at hc
    obtain rfl | hc | rfl := hc
    · decide
    · exact dumpsFields_clean (forall_clean h) hc
    · decide
  value_eq := by
    intro fuel rest hfuel _
    obtain ⟨fuel, rfl⟩ := Nat.exists_eq_succ_of_ne_zero (by omega : fuel ≠ 0)
    have htext : dumps (.obj fields) ++ rest
        = '{' :: (dumpsFields fields ++ '}' :: rest) := by
      simp [dumps]
    have hlen : (dumpsFields fields).length < fuel := by
      simp only [dumps, List.length_append, List.length_cons] at hfuel
      omega
    -- the text of the fields starts with a quote
    obtain ⟨tail, htail⟩ : ∃ tail, dumpsFields fields ++ '}' :: rest = '"' :: tail := by
      cases fields with
      | nil => exact absurd rfl hne
      | cons f fields =>
          obtain ⟨k, j⟩ := f
          cases fields with
          | nil => exact ⟨_, rfl⟩
          | cons g fields => exact ⟨_, rfl⟩
    have hmembers : members read fuel (dumpsFields fields ++ '}' :: rest)
        = some (readFields fields values, rest) := members_fields hne h hlen
    rw [htail] at hmembers
    rw [htext, value, skip_of_not_blank (by decide), htail]
    simp only [skip_of_not_blank (show blank '"' = false by decide)]
    change (do
      let (fields, rest) ← members read fuel ('"' :: tail)
      return (JsValue.object fields, rest)) = _
    rw [hmembers]
    rfl

/-- What was written is parsed. -/
theorem Reads.parse_eq {text : List Char} {v : JsValue} (h : Reads read text v) :
    parse read text = some v := by
  have hv := h.value_eq (text.length + 1) [] (by omega) (fun c hc => by cases hc)
  rw [List.append_nil] at hv
  rw [parse, hv]
  rfl

end Mosaic.Lib.JsonText
