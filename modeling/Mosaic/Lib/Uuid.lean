/-
UUIDs as text: what Python writes and what it reads.

`text` is `str(UUID)`. `parse` is `UUID(text)`, which takes far more than
it writes: a `urn:uuid:` in front, braces, hyphens anywhere, and whatever
`int(_, 16)` makes of the rest, such as blanks around it, a `0x`, single
underscores, and the decimal digits of any script. Which characters are
such digits is Unicode's to say, so that table is a parameter
(`Decimals`); only its ASCII part is fixed.

A Python string is given by its characters' numbers, since it may hold
lone surrogates.
-/
import Mosaic.Lib.PyStr
import Mathlib

namespace Mosaic.Lib.Uuid

/-- The decimal digits of Unicode, with their values. -/
structure Decimals where
  value : Nat → Option Nat
  ascii : ∀ c < 128, value c = if 48 ≤ c ∧ c ≤ 57 then some (c - 48) else none

-- =============================================================== writing

/-- The last `k` hexadecimal digits of `n`. -/
def nibbles : Nat → Nat → List Nat
  | 0, _ => []
  | k + 1, n => nibbles k (n / 16) ++ [n % 16]

/-- `"%032x" % int`. -/
def hex (n : Nat) : List Char := (nibbles 32 n).map Nat.digitChar

/-- `UUID.__str__`. -/
def text (n : Nat) : String :=
  String.ofList ((hex n).take 8 ++ '-' :: ((hex n).drop 8).take 4
    ++ '-' :: ((hex n).drop 12).take 4 ++ '-' :: ((hex n).drop 16).take 4
    ++ '-' :: (hex n).drop 20)

-- =============================================================== reading

/-- The numbers of the characters of a text. -/
def codes (s : String) : List Nat := s.toList.map Char.toNat

/-- `str.replace(pattern, "")`, after `skip` characters of a match. -/
def removeFrom (pattern : List Nat) : Nat → List Nat → List Nat
  | _, [] => []
  | skip + 1, _ :: rest => removeFrom pattern skip rest
  | 0, c :: rest =>
      if pattern.isPrefixOf (c :: rest) = true then
        removeFrom pattern (pattern.length - 1) rest
      else c :: removeFrom pattern 0 rest

def remove (pattern : String) (s : List Nat) : List Nat := removeFrom (codes pattern) 0 s

/-- `str.strip` of the characters that satisfy `p`. -/
def strip (p : Nat → Bool) (s : List Nat) : List Nat :=
  ((s.dropWhile p).reverse.dropWhile p).reverse

def isBrace (c : Nat) : Bool := c == '{'.toNat || c == '}'.toNat

/-- What `int(s, 16)` passes over around its digits. Python first turns the
blanks from 128 on into spaces and leaves what is below as it is; there its
parser knows the ASCII blanks only, so `U+001C` to `U+001F` are not among
them, as they are for `str.isspace`. -/
def isSpace (c : Nat) : Bool :=
  if c < 128 then c == 32 || (9 ≤ c && c ≤ 13) else PyStr.isSpace (Char.ofNat c)

section

variable (decimals : Decimals)

/-- The value of a character in base 16. -/
def hexValue (c : Nat) : Option Nat :=
  if 'a'.toNat ≤ c ∧ c ≤ 'f'.toNat then some (c - 'a'.toNat + 10)
  else if 'A'.toNat ≤ c ∧ c ≤ 'F'.toNat then some (c - 'A'.toNat + 10)
  else decimals.value c

/-- Digits with single underscores between them; `digit` says whether one
came last. -/
def digitsValue : Bool → Nat → List Nat → Option Nat
  | digit, n, [] => if digit = true then some n else none
  | digit, n, c :: rest =>
      if c = '_'.toNat then if digit = true then digitsValue false n rest else none
      else match hexValue decimals c with
        | some d => digitsValue true (n * 16 + d) rest
        | none => none

/-- The digits after an optional `0x`, which an underscore may follow. -/
def magnitude : List Nat → Option Nat
  | z :: x :: rest =>
      if decimals.value z = some 0 ∧ (x = 'x'.toNat ∨ x = 'X'.toNat) then
        match rest with
        | u :: rest =>
            if u = '_'.toNat then digitsValue decimals false 0 rest
            else digitsValue decimals false 0 (u :: rest)
        | [] => none
      else digitsValue decimals false 0 (z :: x :: rest)
  | s => digitsValue decimals false 0 s

/-- `int(s, 16)`; none is a `ValueError`. -/
def int16 (s : List Nat) : Option Int :=
  match strip isSpace s with
  | c :: rest =>
      if c = '-'.toNat then (magnitude decimals rest).map fun n : Nat => -(n : Int)
      else if c = '+'.toNat then (magnitude decimals rest).map Int.ofNat
      else (magnitude decimals (c :: rest)).map Int.ofNat
  | [] => none

/-- `UUID(s)`; none is a `ValueError`. -/
def parse (s : List Nat) : Option Nat := do
  let s := strip isBrace (remove "uuid:" (remove "urn:" s))
  let s := s.filter fun c => c != '-'.toNat
  if s.length ≠ 32 then none
  else do
    let n ← int16 decimals s
    if 0 ≤ n ∧ n < 2 ^ 128 then some n.toNat else none

end

-- ============================================================ round trip

theorem nibbles_lt {k n d : Nat} (h : d ∈ nibbles k n) : d < 16 := by
  induction k generalizing n with
  | zero => cases h
  | succ k ih =>
      rcases List.mem_append.mp h with h | h
      · exact ih h
      · rw [List.mem_singleton.mp h]
        exact Nat.mod_lt _ (by decide)

@[simp] theorem length_nibbles (k n : Nat) : (nibbles k n).length = k := by
  induction k generalizing n with
  | zero => rfl
  | succ k ih => simp [nibbles, ih]

theorem foldl_nibbles (k n : Nat) :
    (nibbles k n).foldl (fun a d => a * 16 + d) 0 = n % 16 ^ k := by
  induction k generalizing n with
  | zero => simp [nibbles, Nat.mod_one]
  | succ k ih =>
      rw [nibbles, List.foldl_append, ih, Nat.pow_succ', Nat.mod_mul]
      simp only [List.foldl_cons, List.foldl_nil]
      ring

/-- A written character: a digit or a lower case letter. -/
theorem hexValue_digitChar (decimals : Decimals) {d : Nat} (h : d < 16) :
    hexValue decimals (Nat.digitChar d).toNat = some d ∧ (Nat.digitChar d).toNat ≠ '_'.toNat := by
  have hdec := decimals.ascii
  interval_cases d <;> simp [hexValue, Nat.digitChar, hdec]

theorem digitsValue_nibbles (decimals : Decimals) {l : List Nat} (h : ∀ d ∈ l, d < 16)
    (digit : Bool) (n : Nat) (hne : digit = true ∨ l ≠ []) :
    digitsValue decimals digit n (l.map fun d => (Nat.digitChar d).toNat)
      = some (l.foldl (fun a d => a * 16 + d) n) := by
  induction l generalizing digit n with
  | nil => simpa [digitsValue] using hne
  | cons d l ih =>
      obtain ⟨hvalue, hund⟩ := hexValue_digitChar decimals (h d List.mem_cons_self)
      rw [List.map_cons, digitsValue, if_neg hund, hvalue]
      exact ih (fun e he => h e (List.mem_cons_of_mem d he)) true _ (Or.inl rfl)

/-- A pattern with a character that does not occur is not found. -/
theorem remove_of_not_mem {pattern : String} {s : List Nat} {c : Nat}
    (hc : c ∈ codes pattern) (hs : c ∉ s) : remove pattern s = s := by
  unfold remove
  induction s with
  | nil => rfl
  | cons x s ih =>
      have hno : ¬ (codes pattern).isPrefixOf (x :: s) = true := fun hpre =>
        hs ((List.isPrefixOf_iff_prefix.mp hpre).subset hc)
      rw [removeFrom, if_neg hno, ih fun hx => hs (List.mem_cons_of_mem x hx)]

theorem strip_of_none {p : Nat → Bool} {s : List Nat} (h : ∀ c ∈ s, p c = false) :
    strip p s = s := by
  have hdrop : ∀ l : List Nat, (∀ c ∈ l, p c = false) → l.dropWhile p = l := by
    intro l hl
    cases l with
    | nil => rfl
    | cons c l => rw [List.dropWhile_cons_of_neg (by simp [hl c List.mem_cons_self])]
  rw [strip, hdrop s h, hdrop s.reverse fun c hc => h c (List.mem_reverse.mp hc),
    List.reverse_reverse]

theorem mem_hex {n : Nat} {c : Char} (h : c ∈ hex n) : ∃ d < 16, c = Nat.digitChar d := by
  obtain ⟨d, hd, rfl⟩ := List.mem_map.mp h
  exact ⟨d, nibbles_lt hd, rfl⟩

/-- The characters of a written UUID. -/
theorem mem_text {n : Nat} {c : Char} (h : c ∈ (text n).toList) :
    c = '-' ∨ ∃ d < 16, c = Nat.digitChar d := by
  simp only [text, String.toList_ofList, List.mem_append, List.mem_cons] at h
  rcases h with ((((h | rfl | h) | rfl | h) | rfl | h) | rfl | h)
  · exact Or.inr (mem_hex (List.mem_of_mem_take h))
  · exact Or.inl rfl
  · exact Or.inr (mem_hex (List.mem_of_mem_drop (List.mem_of_mem_take h)))
  · exact Or.inl rfl
  · exact Or.inr (mem_hex (List.mem_of_mem_drop (List.mem_of_mem_take h)))
  · exact Or.inl rfl
  · exact Or.inr (mem_hex (List.mem_of_mem_drop (List.mem_of_mem_take h)))
  · exact Or.inl rfl
  · exact Or.inr (mem_hex (List.mem_of_mem_drop h))

/-- A test that hyphens and digits fail fails everywhere in a written
UUID. -/
theorem codes_text {p : Nat → Bool} (hhyphen : p '-'.toNat = false)
    (hdigit : ∀ d < 16, p (Nat.digitChar d).toNat = false) (n : Nat) :
    ∀ c ∈ codes (text n), p c = false := by
  intro c hc
  obtain ⟨x, hx, rfl⟩ := List.mem_map.mp hc
  obtain rfl | ⟨d, hd, rfl⟩ := mem_text hx
  · exact hhyphen
  · exact hdigit d hd

/-- Without its hyphens a written UUID is its hexadecimal digits. -/
theorem filter_text (n : Nat) :
    (codes (text n)).filter (fun c => c != '-'.toNat) = (hex n).map Char.toNat := by
  have hkeep : ∀ l : List Char, (∀ c ∈ l, c ∈ hex n) →
      (l.map Char.toNat).filter (fun c => c != '-'.toNat) = l.map Char.toNat := by
    intro l hl
    refine List.filter_eq_self.mpr fun c hc => ?_
    obtain ⟨x, hx, rfl⟩ := List.mem_map.mp hc
    obtain ⟨d, hd, rfl⟩ := mem_hex (hl x hx)
    interval_cases d <;> decide
  have hsplit : (hex n).take 8 ++ (((hex n).drop 8).take 4 ++ (((hex n).drop 12).take 4
      ++ (((hex n).drop 16).take 4 ++ (hex n).drop 20))) = hex n := by
    have h₁ := List.take_append_drop 4 ((hex n).drop 16)
    have h₂ := List.take_append_drop 4 ((hex n).drop 12)
    have h₃ := List.take_append_drop 4 ((hex n).drop 8)
    rw [List.drop_drop] at h₁ h₂ h₃
    rw [h₁, h₂, h₃, List.take_append_drop]
  have hhyphen : ∀ l : List Char, (('-' :: l).map Char.toNat).filter (fun c => c != '-'.toNat)
      = (l.map Char.toNat).filter fun c => c != '-'.toNat := fun l => rfl
  conv_rhs => rw [← hsplit]
  simp only [codes, text, String.toList_ofList, List.map_append, List.filter_append, hhyphen,
    List.append_assoc]
  rw [hkeep _ fun c hc => List.mem_of_mem_take hc,
    hkeep _ fun c hc => List.mem_of_mem_drop (List.mem_of_mem_take hc),
    hkeep _ fun c hc => List.mem_of_mem_drop (List.mem_of_mem_take hc),
    hkeep _ fun c hc => List.mem_of_mem_drop (List.mem_of_mem_take hc),
    hkeep _ fun c hc => List.mem_of_mem_drop hc]

theorem magnitude_digits {decimals : Decimals} {z x : Nat} {rest : List Nat}
    (h : ¬ (decimals.value z = some 0 ∧ (x = 'x'.toNat ∨ x = 'X'.toNat))) :
    magnitude decimals (z :: x :: rest) = digitsValue decimals false 0 (z :: x :: rest) := by
  unfold magnitude
  exact if_neg h

/-- The digits are read back, sign and prefix being absent. -/
theorem int16_hex (decimals : Decimals) (n : Nat) :
    int16 decimals ((hex n).map Char.toNat) = some ((n % 16 ^ 32 : Nat) : Int) := by
  have hmap : (hex n).map Char.toNat = (nibbles 32 n).map fun d => (Nat.digitChar d).toNat := by
    rw [hex, List.map_map]
    rfl
  have hlt : ∀ d ∈ nibbles 32 n, d < 16 := fun d hd => nibbles_lt hd
  have hvalue := digitsValue_nibbles decimals hlt false 0
    (Or.inr (List.ne_nil_of_length_eq_add_one (length_nibbles 32 n)))
  rw [foldl_nibbles] at hvalue
  have hspace : ∀ c ∈ (nibbles 32 n).map fun d => (Nat.digitChar d).toNat,
      isSpace c = false := by
    intro c hc
    obtain ⟨d, hd, rfl⟩ := List.mem_map.mp hc
    have := hlt d hd
    interval_cases d <;> decide
  rw [hmap, int16, strip_of_none hspace]
  -- the first two characters are digits, so neither a sign nor a prefix
  obtain ⟨d, e, l, hl⟩ : ∃ d e l, nibbles 32 n = d :: e :: l := by
    match hn : nibbles 32 n with
    | d :: e :: l => exact ⟨d, e, l, rfl⟩
    | [d] =>
        have := length_nibbles 32 n
        rw [hn] at this
        cases this
    | [] =>
        have := length_nibbles 32 n
        rw [hn] at this
        cases this
  rw [hl] at hvalue hlt ⊢
  have hd := hlt d (by simp)
  have he := hlt e (by simp)
  have hsign : (Nat.digitChar d).toNat ≠ '-'.toNat ∧ (Nat.digitChar d).toNat ≠ '+'.toNat := by
    interval_cases d <;> decide
  have hprefix : ¬ (decimals.value (Nat.digitChar d).toNat = some 0
      ∧ ((Nat.digitChar e).toNat = 'x'.toNat ∨ (Nat.digitChar e).toNat = 'X'.toNat)) := by
    rintro ⟨-, hx⟩
    interval_cases e <;> revert hx <;> decide
  simp only [List.map_cons] at hvalue ⊢
  rw [if_neg hsign.1, if_neg hsign.2, magnitude_digits hprefix, hvalue]
  rfl

theorem parse_lt {decimals : Decimals} {s : List Nat} {n : Nat}
    (h : parse decimals s = some n) : n < 2 ^ 128 := by
  unfold parse at h
  dsimp only at h
  split at h
  · cases h
  · simp only [Option.bind_eq_bind, Option.bind_eq_some_iff] at h
    obtain ⟨i, -, h⟩ := h
    split at h
    · next hrange =>
        obtain rfl := Option.some.inj h
        omega
    · cases h

/-- `UUID(s)` when its digits are what is left of it. -/
theorem parse_of_digits {decimals : Decimals} {s digits : List Nat} {i : Int}
    (hs : (strip isBrace (remove "uuid:" (remove "urn:" s))).filter
      (fun c => c != '-'.toNat) = digits)
    (hlength : digits.length = 32) (hint : int16 decimals digits = some i)
    (hrange : 0 ≤ i ∧ i < 2 ^ 128) : parse decimals s = some i.toNat := by
  unfold parse
  dsimp only
  rw [hs, if_neg (not_not.mpr hlength), hint]
  exact if_pos hrange

/-- What was written is read. -/
theorem parse_text (decimals : Decimals) {n : Nat} (hn : n < 2 ^ 128) :
    parse decimals (codes (text n)) = some n := by
  have hcolon : ':'.toNat ∉ codes (text n) := by
    intro hmem
    have := codes_text (p := fun c => c == ':'.toNat) (by decide) (by decide) n _ hmem
    simp at this
  have hbrace := codes_text (p := isBrace) (by decide) (by decide) n
  have hurn : remove "urn:" (codes (text n)) = codes (text n) :=
    remove_of_not_mem (c := ':'.toNat) (by decide) hcolon
  have huuid : remove "uuid:" (codes (text n)) = codes (text n) :=
    remove_of_not_mem (c := ':'.toNat) (by decide) hcolon
  have hdigits : (strip isBrace (remove "uuid:" (remove "urn:" (codes (text n))))).filter
      (fun c => c != '-'.toNat) = (hex n).map Char.toNat := by
    rw [hurn, huuid, strip_of_none hbrace, filter_text]
  have hlength : ((hex n).map Char.toNat).length = 32 := by
    rw [List.length_map, hex, List.length_map, length_nibbles]
  have hint : int16 decimals ((hex n).map Char.toNat) = some (n : Int) := by
    rw [int16_hex, show (16 : Nat) ^ 32 = 2 ^ 128 by norm_num, Nat.mod_eq_of_lt hn]
  have hrange : (0 : Int) ≤ n ∧ (n : Int) < 2 ^ 128 :=
    ⟨Int.natCast_nonneg n, by exact_mod_cast hn⟩
  exact parse_of_digits hdigits hlength hint hrange

end Mosaic.Lib.Uuid
