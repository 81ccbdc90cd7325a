/-
JSON as Python reads it.

`loads` is `json.loads` of a text: the grammar of `JsonText` with the three
constants Python adds, and the interpreter's recursion limit, which the
scanner meets at an opening bracket before it looks at what is inside.
Strings are kept as UTF-16 units: Python joins two escapes that form a
pair, so the units tell two decoded strings apart (`points` are their
characters, lone surrogates included).

# Fuel

The three readers recurse on a fuel, and running out of it has an outcome
of its own. `loads_ne_fuel` shows that the fuel it starts with always
suffices, so that outcome is never seen.
-/
import Mosaic.Lib.JsonText

namespace Mosaic.Lib.PyJson

open JsonText

inductive JsonError
  | decode
  | recursion
  | fuel
deriving Repr, DecidableEq

-- =============================================================== numbers

/-- A literal without fraction and exponent is an `int`, any other a
`float`, kept as it is spelled. -/
def number (literal : List Char) : JsNumber :=
  if literal.any (fun c => c == '.' || c == 'e' || c == 'E') = true then .other literal
  else match literal with
    | '-' :: digits => .integer (-(Nat.ofDigitChars 10 digits 0 : Int))
    | digits => .integer (Nat.ofDigitChars 10 digits 0)

/-- `NaN`, `Infinity` and `-Infinity`. -/
def constant : List Char → Option (List Char × List Char)
  | 'N' :: 'a' :: 'N' :: rest => some (['N', 'a', 'N'], rest)
  | 'I' :: 'n' :: 'f' :: 'i' :: 'n' :: 'i' :: 't' :: 'y' :: rest =>
      some (['I', 'n', 'f', 'i', 'n', 'i', 't', 'y'], rest)
  | '-' :: 'I' :: 'n' :: 'f' :: 'i' :: 'n' :: 'i' :: 't' :: 'y' :: rest =>
      some (['-', 'I', 'n', 'f', 'i', 'n', 'i', 't', 'y'], rest)
  | _ => none

/-- A number or one of the constants. -/
def scalar (cs : List Char) : Except JsonError (JsValue × List Char) :=
  match constant cs with
  | some (literal, rest) => .ok (.number (.other literal), rest)
  | none =>
      match numberLiteral cs with
      | some (literal, rest) => .ok (.number (number literal), rest)
      | none => .error .decode

-- =============================================================== readers

/-- A string after its opening quote. -/
def string (cs : List Char) : Except JsonError (List UInt16 × List Char) :=
  match stringBody cs with
  | some x => .ok x
  | none => .error .decode

mutual

/-- `scan_once`, where `depth` more brackets may be opened. -/
def value : Nat → Nat → List Char → Except JsonError (JsValue × List Char)
  | 0, _, _ => .error .fuel
  | fuel + 1, depth, cs =>
      match skip cs with
      | '"' :: rest => do
          let (s, rest) ← string rest
          return (.string s, rest)
      | '{' :: rest =>
          match depth with
          | 0 => .error .recursion
          | depth + 1 =>
              match skip rest with
              | '}' :: rest => .ok (.object [], rest)
              | rest => do
                  let (fields, rest) ← members fuel depth rest
                  return (.object fields, rest)
      | '[' :: rest =>
          match depth with
          | 0 => .error .recursion
          | depth + 1 =>
              match skip rest with
              | ']' :: rest => .ok (.array [], rest)
              | rest => do
                  let (items, rest) ← elements fuel depth rest
                  return (.array items, rest)
      | 't' :: 'r' :: 'u' :: 'e' :: rest => .ok (.bool true, rest)
      | 'f' :: 'a' :: 'l' :: 's' :: 'e' :: rest => .ok (.bool false, rest)
      | 'n' :: 'u' :: 'l' :: 'l' :: rest => .ok (.null, rest)
      | cs => scalar cs

def elements : Nat → Nat → List Char → Except JsonError (List JsValue × List Char)
  | 0, _, _ => .error .fuel
  | fuel + 1, depth, cs => do
      let (v, rest) ← value fuel depth cs
      match skip rest with
      | ',' :: rest => do
          let (items, rest) ← elements fuel depth rest
          return (v :: items, rest)
      | ']' :: rest => return ([v], rest)
      | _ => .error .decode

def members : Nat → Nat → List Char →
    Except JsonError (List (List UInt16 × JsValue) × List Char)
  | 0, _, _ => .error .fuel
  | fuel + 1, depth, cs =>
      match skip cs with
      | '"' :: rest => do
          let (key, rest) ← string rest
          match skip rest with
          | ':' :: rest => do
              let (v, rest) ← value fuel depth rest
              match skip rest with
              | ',' :: rest => do
                  let (fields, rest) ← members fuel depth rest
                  return ((key, v) :: fields, rest)
              | '}' :: rest => return ([(key, v)], rest)
              | _ => .error .decode
          | _ => .error .decode
      | _ => .error .decode

end

/-- `json.loads` of a text; a leading byte order mark is refused. -/
def loads (limit : Nat) (text : List Char) : Except JsonError JsValue :=
  if text.head? = some (Char.ofNat 0xFEFF) then .error .decode
  else do
    let (v, rest) ← value (2 * text.length + 1) limit text
    if skip rest = [] then .ok v else .error .decode

/-- The entry of a decoded object: a later duplicate replaces an earlier
one. -/
def get (fields : List (List UInt16 × JsValue)) (key : String) : Option JsValue :=
  (fields.reverse.find? fun f => f.1 == jsString key.toList).map (·.2)

/-- The characters of a decoded string. -/
def points : List UInt16 → List Nat
  | [] => []
  | [u] => [u.toNat]
  | u :: v :: rest =>
      if 0xD800 ≤ u.toNat ∧ u.toNat ≤ 0xDBFF ∧ 0xDC00 ≤ v.toNat ∧ v.toNat ≤ 0xDFFF then
        (0x10000 + (u.toNat - 0xD800) * 0x400 + (v.toNat - 0xDC00)) :: points rest
      else u.toNat :: points (v :: rest)

-- ============================================================= the fuel

theorem length_skip (cs : List Char) : (skip cs).length ≤ cs.length :=
  (List.dropWhile_suffix _).length_le

theorem length_skip_cons {cs rest : List Char} {c : Char} (h : skip cs = c :: rest) :
    rest.length < cs.length := by
  have := length_skip cs
  rw [h, List.length_cons] at this
  omega

theorem length_stringBody {cs rest : List Char} {s : List UInt16}
    (h : stringBody cs = some (s, rest)) : rest.length < cs.length := by
  fun_induction stringBody cs generalizing s rest with
  | case1 => cases h
  | case2 tail =>
      obtain ⟨-, rfl⟩ := Prod.mk.inj (Option.some.inj h)
      exact Nat.lt_succ_self _
  | case3 a b c d tail ih =>
      simp only [Option.bind_eq_bind, Option.bind_eq_some_iff, Option.pure_def,
        Option.some.injEq, Prod.mk.injEq] at h
      obtain ⟨-, -, ⟨s', rest'⟩, hbody, -, rfl⟩ := h
      have := ih hbody
      simp only [List.length_cons]
      omega
  | case4 e tail hno ih =>
      simp only [Option.bind_eq_bind, Option.bind_eq_some_iff, Option.pure_def,
        Option.some.injEq, Prod.mk.injEq] at h
      obtain ⟨-, -, ⟨s', rest'⟩, hbody, -, rfl⟩ := h
      have := ih hbody
      simp only [List.length_cons]
      omega
  | case5 => cases h
  | case6 c tail h1 h2 h3 hplain ih =>
      simp only [Option.bind_eq_bind, Option.bind_eq_some_iff, Option.pure_def,
        Option.some.injEq, Prod.mk.injEq] at h
      obtain ⟨⟨s', rest'⟩, hbody, -, rfl⟩ := h
      have := ih hbody
      simp only [List.length_cons]
      omega

theorem length_dropWhile_digits {cs : List Char} (h : cs.takeWhile Char.isDigit ≠ []) :
    (cs.dropWhile Char.isDigit).length < cs.length := by
  have hsplit : (cs.takeWhile Char.isDigit).length + (cs.dropWhile Char.isDigit).length
      = cs.length := by
    rw [← List.length_append, List.takeWhile_append_dropWhile]
  have := List.length_pos_iff.mpr h
  omega

theorem length_integerPart {cs digits rest : List Char}
    (h : integerPart cs = some (digits, rest)) : rest.length < cs.length := by
  unfold integerPart at h
  split at h
  · obtain ⟨-, rfl⟩ := Prod.mk.inj (Option.some.inj h)
    exact Nat.lt_succ_self _
  · dsimp only at h
    split at h
    · cases h
    · next hne =>
        obtain ⟨-, rfl⟩ := Prod.mk.inj (Option.some.inj h)
        exact length_dropWhile_digits hne

theorem length_fractionPart {cs digits rest : List Char}
    (h : fractionPart cs = some (digits, rest)) : rest.length ≤ cs.length := by
  unfold fractionPart at h
  split at h
  · dsimp only at h
    split at h
    · cases h
    · obtain ⟨-, rfl⟩ := Prod.mk.inj (Option.some.inj h)
      exact Nat.le_succ_of_le (List.dropWhile_suffix _).length_le
  · obtain ⟨-, rfl⟩ := Prod.mk.inj (Option.some.inj h)
    exact le_rfl

theorem length_exponentPart {cs digits rest : List Char}
    (h : exponentPart cs = some (digits, rest)) : rest.length ≤ cs.length := by
  unfold exponentPart at h
  split at h
  · obtain ⟨-, rfl⟩ := Prod.mk.inj (Option.some.inj h)
    exact le_rfl
  · next c tail =>
      dsimp only at h
      split at h
      · split at h
        · cases h
        · obtain ⟨-, rfl⟩ := Prod.mk.inj (Option.some.inj h)
          refine Nat.le_succ_of_le (le_trans (List.dropWhile_suffix _).length_le ?_)
          exact (List.drop_suffix _ _).length_le
      · obtain ⟨-, rfl⟩ := Prod.mk.inj (Option.some.inj h)
        exact le_rfl

theorem length_numberLiteral {cs literal rest : List Char}
    (h : numberLiteral cs = some (literal, rest)) : rest.length < cs.length := by
  simp only [numberLiteral, Option.bind_eq_bind, Option.bind_eq_some_iff, Option.pure_def,
    Option.some.injEq, Prod.mk.injEq] at h
  obtain ⟨⟨whole, cs₁⟩, hwhole, ⟨fraction, cs₂⟩, hfraction, ⟨exponent, cs₃⟩, hexponent, -,
    rfl⟩ := h
  have h₁ := length_integerPart hwhole
  have h₂ := length_fractionPart hfraction
  have h₃ := length_exponentPart hexponent
  have h₀ := (List.drop_suffix ((cs.take 1).filter fun s => s == '-').length cs).length_le
  simp only at h₂ h₃
  show cs₃.length < cs.length
  omega

/-- A reading of `text` that took something, or failed for another reason
than fuel. -/
def Settled {α : Type} (text : List Char) (x : Except JsonError (α × List Char)) : Prop :=
  x ≠ .error .fuel ∧ ∀ v rest, x = .ok (v, rest) → rest.length < text.length

theorem settled_error {α : Type} (text : List Char) {e : JsonError} (he : e ≠ .fuel) :
    Settled text (.error e : Except JsonError (α × List Char)) :=
  ⟨fun h => he (Except.error.inj h), fun _ _ h => by cases h⟩

theorem settled_ok {α : Type} {text rest : List Char} (v : α)
    (h : rest.length < text.length) :
    Settled text (.ok (v, rest) : Except JsonError (α × List Char)) := by
  constructor
  · intro he
    cases he
  · intro w rest' he
    obtain ⟨-, rfl⟩ := Prod.mk.inj (Except.ok.inj he)
    exact h

/-- A reading continued on what it left. -/
theorem Settled.bind {α β : Type} {text text' : List Char}
    {x : Except JsonError (α × List Char)}
    {f : α × List Char → Except JsonError (β × List Char)} (hx : Settled text' x)
    (hf : ∀ v rest, rest.length < text'.length → Settled text (f (v, rest))) :
    Settled text (x >>= f) := by
  cases x with
  | error e =>
      refine settled_error text fun he => ?_
      subst he
      exact hx.1 rfl
  | ok y =>
      obtain ⟨v, rest⟩ := y
      exact hf v rest (hx.2 v rest rfl)

theorem settled_string (cs : List Char) : Settled cs (string cs) := by
  unfold string
  split
  · next x hx => exact settled_ok x.1 (length_stringBody hx)
  · exact settled_error cs (by decide)

theorem length_constant {cs literal rest : List Char}
    (h : constant cs = some (literal, rest)) : rest.length < cs.length := by
  unfold constant at h
  split at h
  · obtain ⟨-, rfl⟩ := Prod.mk.inj (Option.some.inj h)
    simp only [List.length_cons]
    omega
  · obtain ⟨-, rfl⟩ := Prod.mk.inj (Option.some.inj h)
    simp only [List.length_cons]
    omega
  · obtain ⟨-, rfl⟩ := Prod.mk.inj (Option.some.inj h)
    simp only [List.length_cons]
    omega
  · cases h

theorem settled_scalar (cs : List Char) : Settled cs (scalar cs) := by
  unfold scalar
  split
  · next literal rest h => exact settled_ok _ (length_constant h)
  · split
    · next literal rest h => exact settled_ok _ (length_numberLiteral h)
    · exact settled_error cs (by decide)

theorem Settled.mono {α : Type} {text text' : List Char}
    {x : Except JsonError (α × List Char)} (h : Settled text x)
    (hle : text.length ≤ text'.length) : Settled text' x :=
  ⟨h.1, fun v rest hx => lt_of_lt_of_le (h.2 v rest hx) hle⟩

/-- An opening bracket uses one character and two units of fuel. -/
theorem settled_readers (fuel : Nat) :
    (∀ depth cs, 2 * cs.length < fuel → Settled cs (value fuel depth cs))
      ∧ (∀ depth cs, 2 * cs.length + 1 < fuel → Settled cs (elements fuel depth cs))
      ∧ (∀ depth cs, 2 * cs.length < fuel → Settled cs (members fuel depth cs)) := by
  induction fuel with
  | zero =>
      refine ⟨fun _ _ h => ?_, fun _ _ h => ?_, fun _ _ h => ?_⟩ <;> omega
  | succ fuel ih =>
      obtain ⟨hvalue, helements, hmembers⟩ := ih
      refine ⟨fun depth cs hfuel => ?_, fun depth cs hfuel => ?_, fun depth cs hfuel => ?_⟩
      · rw [value]
        split
        · next rest hcs =>
            have := length_skip_cons hcs
            refine (settled_string rest).bind fun s rest' hlt => settled_ok _ ?_
            omega
        · next rest hcs =>
            have := length_skip_cons hcs
            have hskip := length_skip rest
            cases depth with
            | zero => exact settled_error cs (by decide)
            | succ depth =>
                dsimp only
                split
                · next rest' hrest =>
                    have := length_skip_cons hrest
                    exact settled_ok _ (by omega)
                · refine (hmembers depth _ (by omega)).bind fun s rest' hlt => settled_ok _ ?_
                  show rest'.length < cs.length
                  omega
        · next rest hcs =>
            have := length_skip_cons hcs
            have hskip := length_skip rest
            cases depth with
            | zero => exact settled_error cs (by decide)
            | succ depth =>
                dsimp only
                split
                · next rest' hrest =>
                    have := length_skip_cons hrest
                    exact settled_ok _ (by omega)
                · refine (helements depth _ (by omega)).bind fun s rest' hlt => settled_ok _ ?_
                  show rest'.length < cs.length
                  omega
        · next rest hcs =>
            have := length_skip_cons hcs
            simp only [List.length_cons] at this
            exact settled_ok _ (by omega)
        · next rest hcs =>
            have := length_skip_cons hcs
            simp only [List.length_cons] at this
            exact settled_ok _ (by omega)
        · next rest hcs =>
            have := length_skip_cons hcs
            simp only [List.length_cons] at this
            exact settled_ok _ (by omega)
        · exact (settled_scalar _).mono (length_skip cs)
      · rw [elements]
        refine (hvalue depth cs (by omega)).bind fun v rest hlt => ?_
        dsimp only
        split
        · next rest' hrest =>
            have := length_skip_cons hrest
            refine (helements depth rest' (by omega)).bind fun items rest'' hlt' => settled_ok _ ?_
            show rest''.length < cs.length
            omega
        · next rest' hrest =>
            have := length_skip_cons hrest
            exact settled_ok _ (by omega)
        · exact settled_error cs (by decide)
      · rw [members]
        split
        · next rest hcs =>
            have := length_skip_cons hcs
            refine (settled_string rest).bind fun key rest₁ hlt₁ => ?_
            dsimp only
            split
            · next rest₂ hrest₂ =>
                have := length_skip_cons hrest₂
                refine (hvalue depth rest₂ (by omega)).bind fun v rest₃ hlt₃ => ?_
                dsimp only
                split
                · next rest₄ hrest₄ =>
                    have := length_skip_cons hrest₄
                    refine (hmembers depth rest₄ (by omega)).bind fun fields rest₅ hlt₅ =>
                      settled_ok _ ?_
                    show rest₅.length < cs.length
                    omega
                · next rest₄ hrest₄ =>
                    have := length_skip_cons hrest₄
                    exact settled_ok _ (by omega)
                · exact settled_error cs (by decide)
            · exact settled_error cs (by decide)
        · exact settled_error cs (by decide)

/-- Reading a text never runs out of fuel. -/
theorem loads_ne_fuel (limit : Nat) (text : List Char) : loads limit text ≠ .error .fuel := by
  unfold loads
  split
  · exact fun h => by cases h
  · have hsettled := (settled_readers (2 * text.length + 1)).1 limit text (by omega)
    cases hv : value (2 * text.length + 1) limit text with
    | error e =>
        intro h
        obtain rfl := Except.error.inj h
        exact hsettled.1 hv
    | ok x =>
        show (if skip x.2 = [] then Except.ok x.1 else Except.error JsonError.decode)
          ≠ .error JsonError.fuel
        split <;> exact fun h => by cases h

-- ====================================================== what was written

mutual

/-- How many brackets of a value are open at once. -/
def nesting : JsValue → Nat
  | .object fields => nestingFields fields + 1
  | .array items => nestingItems items + 1
  | _ => 0

def nestingItems : List JsValue → Nat
  | [] => 0
  | v :: items => max (nesting v) (nestingItems items)

def nestingFields : List (List UInt16 × JsValue) → Nat
  | [] => 0
  | (_, v) :: fields => max (nesting v) (nestingFields fields)

end

theorem numberLiteral_constant {cs : List Char} {x : List Char × List Char}
    (h : constant cs = some x) : numberLiteral cs = none := by
  unfold constant at h
  split at h
  · rfl
  · rfl
  · rfl
  · cases h

theorem scalar_of_literal {cs literal rest : List Char}
    (h : numberLiteral cs = some (literal, rest)) :
    scalar cs = .ok (.number (number literal), rest) := by
  unfold scalar
  cases hc : constant cs with
  | some x =>
      rw [numberLiteral_constant hc] at h
      cases h
  | none => rw [h]

theorem string_of_body {cs rest : List Char} {s : List UInt16}
    (h : stringBody cs = some (s, rest)) : string cs = .ok (s, rest) := by
  rw [string, h]

/-- What the grammar of `JsonText` reads, the Python readers read, as long
as they may open its brackets. -/
theorem readers_of_text (fuel : Nat) :
    (∀ depth cs v rest, JsonText.value number fuel cs = some (v, rest) →
        nesting v ≤ depth → value fuel depth cs = .ok (v, rest))
      ∧ (∀ depth cs items rest, JsonText.elements number fuel cs = some (items, rest) →
        nestingItems items ≤ depth → elements fuel depth cs = .ok (items, rest))
      ∧ (∀ depth cs fields rest, JsonText.members number fuel cs = some (fields, rest) →
        nestingFields fields ≤ depth → members fuel depth cs = .ok (fields, rest)) := by
  induction fuel with
  | zero =>
      refine ⟨fun _ _ _ _ h => ?_, fun _ _ _ _ h => ?_, fun _ _ _ _ h => ?_⟩
      · rw [JsonText.value] at h
        cases h
      · rw [JsonText.elements] at h
        cases h
      · rw [JsonText.members] at h
        cases h
  | succ fuel ih =>
      obtain ⟨hvalue, helements, hmembers⟩ := ih
      refine ⟨fun depth cs v rest h hdepth => ?_, fun depth cs items rest h hdepth => ?_,
        fun depth cs fields rest h hdepth => ?_⟩
      -- the readers unfold after the split: both match on the same text
      · rw [JsonText.value] at h
        split at h
        · next body hcs =>
            simp only [Option.bind_eq_bind, Option.bind_eq_some_iff, Option.pure_def,
              Option.some.injEq, Prod.mk.injEq] at h
            obtain ⟨⟨s, tail⟩, hs, rfl, rfl⟩ := h
            rw [value]
            simp only [hcs, string_of_body hs, bind, Except.bind]
            rfl
        · next body hcs =>
            split at h
            · next tail htail =>
                obtain ⟨rfl, rfl⟩ := Prod.mk.inj (Option.some.inj h)
                obtain ⟨depth, rfl⟩ := Nat.exists_eq_succ_of_ne_zero
                  (by simp only [nesting] at hdepth; omega : depth ≠ 0)
                rw [value]
                simp only [hcs, htail]
            · next hno =>
                simp only [Option.bind_eq_bind, Option.bind_eq_some_iff, Option.pure_def,
                  Option.some.injEq, Prod.mk.injEq] at h
                obtain ⟨⟨fields, tail⟩, hfields, rfl, rfl⟩ := h
                rw [nesting] at hdepth
                dsimp only at hdepth
                obtain ⟨depth, rfl⟩ := Nat.exists_eq_succ_of_ne_zero (by omega : depth ≠ 0)
                have hread := hmembers depth _ _ _ hfields (by omega)
                rw [value]
                simp only [hcs]
                rw [hread]
                rfl
        · next body hcs =>
            split at h
            · next tail htail =>
                obtain ⟨rfl, rfl⟩ := Prod.mk.inj (Option.some.inj h)
                obtain ⟨depth, rfl⟩ := Nat.exists_eq_succ_of_ne_zero
                  (by simp only [nesting] at hdepth; omega : depth ≠ 0)
                rw [value]
                simp only [hcs, htail]
            · next hno =>
                simp only [Option.bind_eq_bind, Option.bind_eq_some_iff, Option.pure_def,
                  Option.some.injEq, Prod.mk.injEq] at h
                obtain ⟨⟨items, tail⟩, hitems, rfl, rfl⟩ := h
                rw [nesting] at hdepth
                dsimp only at hdepth
                obtain ⟨depth, rfl⟩ := Nat.exists_eq_succ_of_ne_zero (by omega : depth ≠ 0)
                have hread := helements depth _ _ _ hitems (by omega)
                rw [value]
                simp only [hcs]
                rw [hread]
                rfl
        · next tail hcs =>
            obtain ⟨rfl, rfl⟩ := Prod.mk.inj (Option.some.inj h)
            rw [value]
            simp only [hcs]
        · next tail hcs =>
            obtain ⟨rfl, rfl⟩ := Prod.mk.inj (Option.some.inj h)
            rw [value]
            simp only [hcs]
        · next tail hcs =>
            obtain ⟨rfl, rfl⟩ := Prod.mk.inj (Option.some.inj h)
            rw [value]
            simp only [hcs]
        · next h1 h2 h3 h4 h5 h6 =>
            simp only [Option.bind_eq_bind, Option.bind_eq_some_iff, Option.pure_def,
              Option.some.injEq, Prod.mk.injEq] at h
            obtain ⟨⟨literal, tail⟩, hliteral, rfl, rfl⟩ := h
            rw [value]
            split
            · next hcs => exact absurd hcs (h1 _)
            · next hcs => exact absurd hcs (h2 _)
            · next hcs => exact absurd hcs (h3 _)
            · next hcs => exact absurd hcs (h4 _)
            · next hcs => exact absurd hcs (h5 _)
            · next hcs => exact absurd hcs (h6 _)
            · exact scalar_of_literal hliteral
      · rw [JsonText.elements] at h
        simp only [Option.bind_eq_bind, Option.bind_eq_some_iff] at h
        obtain ⟨⟨v, tail⟩, hv, h⟩ := h
        dsimp only at h
        split at h
        · next tail₁ htail₁ =>
            simp only [Option.bind_eq_some_iff, Option.pure_def,
              Option.some.injEq, Prod.mk.injEq] at h
            obtain ⟨⟨items', tail₂⟩, hitems, rfl, rfl⟩ := h
            rw [nestingItems] at hdepth
            dsimp only at hdepth
            rw [elements, hvalue depth cs v tail hv (by omega)]
            simp only [bind, Except.bind, htail₁]
            rw [helements depth _ _ _ hitems (by omega)]
            rfl
        · next tail₁ htail₁ =>
            simp only [Option.pure_def, Option.some.injEq, Prod.mk.injEq] at h
            obtain ⟨rfl, rfl⟩ := h
            simp only [nestingItems] at hdepth
            rw [elements, hvalue depth cs v tail hv (by omega)]
            simp only [bind, Except.bind, htail₁]
            rfl
        · cases h
      · rw [JsonText.members] at h
        split at h
        · next body hcs =>
            simp only [Option.bind_eq_bind, Option.bind_eq_some_iff] at h
            obtain ⟨⟨key, tail⟩, hkey, h⟩ := h
            dsimp only at h
            split at h
            · next tail₁ htail₁ =>
                simp only [Option.bind_eq_some_iff] at h
                obtain ⟨⟨v, tail₂⟩, hv, h⟩ := h
                dsimp only at h
                split at h
                · next tail₃ htail₃ =>
                    simp only [Option.bind_eq_some_iff, Option.pure_def,
                      Option.some.injEq, Prod.mk.injEq] at h
                    obtain ⟨⟨fields', tail₄⟩, hfields, rfl, rfl⟩ := h
                    rw [nestingFields] at hdepth
                    dsimp only at hdepth
                    rw [members]
                    simp only [hcs, string_of_body hkey, bind, Except.bind, htail₁,
                      hvalue depth _ v tail₂ hv (by omega), htail₃,
                      hmembers depth _ _ _ hfields (by omega)]
                    rfl
                · next tail₃ htail₃ =>
                    simp only [Option.pure_def, Option.some.injEq, Prod.mk.injEq] at h
                    obtain ⟨rfl, rfl⟩ := h
                    simp only [nestingFields] at hdepth
                    rw [members]
                    simp only [hcs, string_of_body hkey, bind, Except.bind, htail₁,
                      hvalue depth _ v tail₂ hv (by omega), htail₃]
                    rfl
                · cases h
            · cases h
        · cases h

theorem number_nat (n : Nat) : number (Nat.toDigits 10 n) = .integer n := by
  have hdigit : ∀ c ∈ Nat.toDigits 10 n, c.isDigit = true := fun c hc => isDigit_toDigits hc
  have hplain : (Nat.toDigits 10 n).any (fun c => c == '.' || c == 'e' || c == 'E') = false := by
    refine List.any_eq_false.mpr fun c hc hpoint => ?_
    have := hdigit c hc
    simp only [Bool.or_eq_true, beq_iff_eq] at hpoint
    obtain (rfl | rfl) | rfl := hpoint <;> cases this
  unfold number
  rw [if_neg (by simp [hplain])]
  split
  · next digits hdigits =>
      have := hdigit '-' (by rw [hdigits]; simp)
      cases this
  · rw [Nat.ofDigitChars_ten_toDigits]

/-- What was written is loaded. -/
theorem loads_of_reads {limit : Nat} {text : List Char} {v : JsValue}
    (h : Reads number text v) (hdepth : nesting v ≤ limit)
    (hmark : text.head? ≠ some (Char.ofNat 0xFEFF)) : loads limit text = .ok v := by
  have hread := h.value_eq (2 * text.length + 1) [] (by omega) (fun c hc => by cases hc)
  rw [List.append_nil] at hread
  rw [loads, if_neg hmark, (readers_of_text _).1 limit text v [] hread hdepth]
  rfl

end Mosaic.Lib.PyJson
