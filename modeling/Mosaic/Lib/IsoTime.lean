/-
The times a JavaScript `Date` can hold, and `toISOString`.

A `Date` holds a number of milliseconds within 8.64e15 of 1970; here it is
its UTC fields, which determine it. `iso` writes them, and `dateOf` reads
what `iso` writes (`dateOf_iso`). Of other texts `dateOf` may make anything:
its callers compare with `iso` of what it returns.
-/
import Mosaic.Lib.Js

namespace Mosaic.Lib

-- ================================================================= times

def isLeapYear (year : Int) : Bool :=
  year % 4 == 0 && (year % 100 != 0 || year % 400 == 0)

def daysIn (year : Int) (month : Nat) : Nat :=
  if month = 2 then if isLeapYear year = true then 29 else 28
  else if month = 4 ∨ month = 6 ∨ month = 9 ∨ month = 11 then 30
  else 31

/-- The order of days; days that do not exist have their place too. -/
def dayOrder (year : Int) (month day : Nat) : Int := (year * 12 + month) * 31 + day

/-- The fields of a time a `Date` can hold. -/
structure TimeFields where
  year : Int
  month : Nat
  day : Nat
  hour : Nat
  minute : Nat
  second : Nat
  millisecond : Nat
deriving Repr, DecidableEq

/-- The fields are those of a time from -271821-04-20 to 275760-09-13, both
at midnight. -/
def TimeFields.valid (t : TimeFields) : Bool :=
  1 ≤ t.month && t.month ≤ 12 && 1 ≤ t.day && t.day ≤ daysIn t.year t.month
    && t.hour ≤ 23 && t.minute ≤ 59 && t.second ≤ 59 && t.millisecond ≤ 999
    && dayOrder (-271821) 4 20 ≤ dayOrder t.year t.month t.day
    && (dayOrder t.year t.month t.day < dayOrder 275760 9 13
      || (dayOrder t.year t.month t.day == dayOrder 275760 9 13 && t.hour == 0
        && t.minute == 0 && t.second == 0 && t.millisecond == 0))

structure Instant extends TimeFields where
  isValid : toTimeFields.valid = true

-- =============================================================== writing

/-- The last `k` decimal digits. -/
def decimal : Nat → Nat → List Char
  | 0, _ => []
  | k + 1, n => decimal k (n / 10) ++ [Nat.digitChar (n % 10)]

/-- Four digits, or a sign and six. -/
def yearText (year : Int) : List Char :=
  if 0 ≤ year ∧ year ≤ 9999 then decimal 4 year.toNat
  else (if year < 0 then '-' else '+') :: decimal 6 year.natAbs

/-- `toISOString`, up to the milliseconds. -/
def TimeFields.stem (t : TimeFields) : List Char :=
  yearText t.year ++ '-' :: decimal 2 t.month ++ '-' :: decimal 2 t.day
    ++ 'T' :: decimal 2 t.hour ++ ':' :: decimal 2 t.minute ++ ':' :: decimal 2 t.second

def TimeFields.iso (t : TimeFields) : List Char :=
  t.stem ++ '.' :: decimal 3 t.millisecond ++ ['Z']

-- =============================================================== reading

/-- The value of decimal digits. -/
def digitsOf (s : JsStr) : Nat := s.foldl (fun n u => 10 * n + (u.toNat - 48)) 0

/-- The fields at the places where `iso` writes them; a text without
milliseconds has none. -/
def fieldsOf (s : JsStr) : TimeFields :=
  let signed := s.head? = some 45 ∨ s.head? = some 43
  let width := if signed then 7 else 4
  let rest := s.drop width
  let at2 (i : Nat) : Nat := digitsOf ((rest.drop i).take 2)
  { year :=
      if s.head? = some 45 then -(digitsOf ((s.drop 1).take 6) : Int)
      else if s.head? = some 43 then digitsOf ((s.drop 1).take 6)
      else digitsOf (s.take 4)
    month := at2 1, day := at2 4, hour := at2 7, minute := at2 10, second := at2 13
    millisecond := if rest.length = 20 then digitsOf ((rest.drop 16).take 3) else 0 }

/-- The time a text of `iso` shows. -/
def dateOf (s : JsStr) : Option Instant :=
  if h : (fieldsOf s).valid = true then some ⟨fieldsOf s, h⟩ else none

-- ================================================================ digits

theorem jsString_append (x y : List Char) :
    JsonText.jsString (x ++ y) = JsonText.jsString x ++ JsonText.jsString y :=
  List.flatMap_append

theorem jsString_cons (c : Char) (x : List Char) :
    JsonText.jsString (c :: x) = JsonText.units c ++ JsonText.jsString x := rfl

theorem units_digitChar : ∀ d < 10,
    JsonText.units (Nat.digitChar d) = [UInt16.ofNat (48 + d)]
      ∧ (UInt16.ofNat (48 + d)).toNat = 48 + d := by
  decide

theorem decimal_length (k n : Nat) : (decimal k n).length = k := by
  induction k generalizing n with
  | zero => rfl
  | succ k ih => simp [decimal, ih]

theorem decimal_digit {k n : Nat} {c : Char} (h : c ∈ decimal k n) :
    ∃ d < 10, c = Nat.digitChar d := by
  induction k generalizing n with
  | zero => cases h
  | succ k ih =>
      rw [decimal, List.mem_append, List.mem_singleton] at h
      obtain h | rfl := h
      · exact ih h
      · exact ⟨n % 10, Nat.mod_lt n (by omega), rfl⟩

theorem jsDecimal_succ (k n : Nat) :
    JsonText.jsString (decimal (k + 1) n)
      = JsonText.jsString (decimal k (n / 10)) ++ [UInt16.ofNat (48 + n % 10)] := by
  rw [decimal, jsString_append, jsString_cons,
    (units_digitChar (n % 10) (Nat.mod_lt n (by omega))).1]
  rfl

theorem jsDecimal_length (k n : Nat) : (JsonText.jsString (decimal k n)).length = k := by
  induction k generalizing n with
  | zero => rfl
  | succ k ih => simp [jsDecimal_succ, ih]

/-- The digits of a number are read as the number. -/
theorem digitsOf_decimal (k n : Nat) :
    digitsOf (JsonText.jsString (decimal k n)) = n % 10 ^ k := by
  induction k generalizing n with
  | zero => simp [decimal, JsonText.jsString, digitsOf, Nat.mod_one]
  | succ k ih =>
      have hdigit := (units_digitChar (n % 10) (Nat.mod_lt n (by omega))).2
      rw [jsDecimal_succ, digitsOf, List.foldl_append]
      show 10 * digitsOf (JsonText.jsString (decimal k (n / 10)))
        + ((UInt16.ofNat (48 + n % 10)).toNat - 48) = _
      rw [ih, hdigit, pow_succ', Nat.mod_mul]
      omega

theorem head_jsDecimal {k n : Nat} {u : UInt16} {rest : JsStr}
    (h : (JsonText.jsString (decimal (k + 1) n) ++ rest).head? = some u) :
    48 ≤ u.toNat ∧ u.toNat ≤ 57 := by
  have hmem : u ∈ JsonText.jsString (decimal (k + 1) n) := by
    have hne : JsonText.jsString (decimal (k + 1) n) ≠ [] := by
      rw [← List.length_pos_iff, jsDecimal_length]
      omega
    rw [List.head?_append_of_ne_nil _ hne] at h
    exact List.mem_of_head? h
  obtain ⟨c, hc, hu⟩ := List.mem_flatMap.mp hmem
  obtain ⟨d, hd, rfl⟩ := decimal_digit hc
  obtain ⟨hunits, hval⟩ := units_digitChar d hd
  rw [hunits, List.mem_singleton] at hu
  rw [hu, hval]
  omega

-- ============================================================ round trip

/-- A part of a list of parts. -/
theorem segment {α : Type} {pre x post : List α} {i k : Nat} (hpre : pre.length = i)
    (hx : x.length = k) : ((pre ++ (x ++ post)).drop i).take k = x := by
  rw [List.drop_left' hpre, List.take_left' hx]

theorem TimeFields.valid_iff {t : TimeFields} : t.valid = true ↔
    1 ≤ t.month ∧ t.month ≤ 12 ∧ 1 ≤ t.day ∧ t.day ≤ daysIn t.year t.month ∧ t.hour ≤ 23
      ∧ t.minute ≤ 59 ∧ t.second ≤ 59 ∧ t.millisecond ≤ 999
      ∧ dayOrder (-271821) 4 20 ≤ dayOrder t.year t.month t.day
      ∧ (dayOrder t.year t.month t.day < dayOrder 275760 9 13
        ∨ (dayOrder t.year t.month t.day = dayOrder 275760 9 13 ∧ t.hour = 0 ∧ t.minute = 0
          ∧ t.second = 0 ∧ t.millisecond = 0)) := by
  simp [TimeFields.valid, and_assoc]

theorem daysIn_le (year : Int) (month : Nat) : daysIn year month ≤ 31 := by
  unfold daysIn
  split
  · split <;> omega
  · split <;> omega

/-- The digits of a number as units. -/
def decimalUnits (k n : Nat) : JsStr := JsonText.jsString (decimal k n)

theorem decimalUnits_length (k n : Nat) : (decimalUnits k n).length = k := jsDecimal_length k n

/-- The units of a text after its year. -/
def TimeFields.tailUnits (t : TimeFields) : JsStr :=
  45 :: decimalUnits 2 t.month ++ 45 :: decimalUnits 2 t.day ++ 84 :: decimalUnits 2 t.hour
    ++ 58 :: decimalUnits 2 t.minute ++ 58 :: decimalUnits 2 t.second
    ++ 46 :: decimalUnits 3 t.millisecond ++ [90]

theorem iso_units (t : TimeFields) :
    JsonText.jsString t.iso = JsonText.jsString (yearText t.year) ++ t.tailUnits := by
  have hdash : JsonText.units '-' = [45] := by decide
  have ht : JsonText.units 'T' = [84] := by decide
  have hcolon : JsonText.units ':' = [58] := by decide
  have hdot : JsonText.units '.' = [46] := by decide
  have hz : JsonText.units 'Z' = [90] := by decide
  have hnil : JsonText.jsString [] = [] := rfl
  simp only [TimeFields.iso, TimeFields.stem, TimeFields.tailUnits, decimalUnits,
    jsString_append, jsString_cons, hdash, ht, hcolon, hdot, hz, hnil, List.append_assoc,
    List.cons_append, List.nil_append]

theorem tailUnits_length (t : TimeFields) : t.tailUnits.length = 20 := by
  simp [TimeFields.tailUnits, decimalUnits_length]

/-- The fields of a day and a time stand at their places. -/
theorem tailUnits_fields {t : TimeFields} (h : t.valid = true) :
    digitsOf ((t.tailUnits.drop 1).take 2) = t.month
      ∧ digitsOf ((t.tailUnits.drop 4).take 2) = t.day
      ∧ digitsOf ((t.tailUnits.drop 7).take 2) = t.hour
      ∧ digitsOf ((t.tailUnits.drop 10).take 2) = t.minute
      ∧ digitsOf ((t.tailUnits.drop 13).take 2) = t.second
      ∧ digitsOf ((t.tailUnits.drop 16).take 3) = t.millisecond := by
  obtain ⟨-, hmonth, -, hday, hhour, hminute, hsecond, hms, -⟩ := TimeFields.valid_iff.mp h
  have hday := hday.trans (daysIn_le t.year t.month)
  -- each field as the middle of three parts
  have hread : ∀ (pre post : JsStr) {i k n : Nat}, pre.length = i → n < 10 ^ k →
      t.tailUnits = pre ++ (decimalUnits k n ++ post) →
      digitsOf ((t.tailUnits.drop i).take k) = n := by
    intro pre post i k n hpre hn heq
    rw [heq, segment hpre (decimalUnits_length k n), decimalUnits, digitsOf_decimal,
      Nat.mod_eq_of_lt hn]
  let month : JsStr := 45 :: decimalUnits 2 t.month
  let day : JsStr := month ++ 45 :: decimalUnits 2 t.day
  let hour : JsStr := day ++ 84 :: decimalUnits 2 t.hour
  let minute : JsStr := hour ++ 58 :: decimalUnits 2 t.minute
  let second : JsStr := minute ++ 58 :: decimalUnits 2 t.second
  refine ⟨?_, ?_, ?_, ?_, ?_, ?_⟩
  · exact hread [45] _ rfl (by omega) (by simp [TimeFields.tailUnits]; rfl)
  · exact hread (month ++ [45]) _ (by simp [month, decimalUnits_length]) (by omega)
      (by simp [TimeFields.tailUnits, month]; rfl)
  · exact hread (day ++ [84]) _ (by simp [day, month, decimalUnits_length]) (by omega)
      (by simp [TimeFields.tailUnits, day, month]; rfl)
  · exact hread (hour ++ [58]) _ (by simp [hour, day, month, decimalUnits_length]) (by omega)
      (by simp [TimeFields.tailUnits, hour, day, month]; rfl)
  · exact hread (minute ++ [58]) _
      (by simp [minute, hour, day, month, decimalUnits_length]) (by omega)
      (by simp [TimeFields.tailUnits, minute, hour, day, month]; rfl)
  · exact hread (second ++ [46]) [90]
      (by simp [second, minute, hour, day, month, decimalUnits_length]) (by omega)
      (by simp [TimeFields.tailUnits, second, minute, hour, day, month])

/-- The year and the rest of a text are read apart. -/
theorem fieldsOf_iso {t : TimeFields} (h : t.valid = true) :
    fieldsOf (JsonText.jsString t.iso) = t := by
  obtain ⟨hmonth, hday, hhour, hminute, hsecond, hms⟩ := tailUnits_fields h
  obtain ⟨hm1, hm2, hd1, hd2, -, -, -, -, hlow, hhigh⟩ := TimeFields.valid_iff.mp h
  have hd2 := hd2.trans (daysIn_le t.year t.month)
  have hyear : -1000000 < t.year ∧ t.year < 1000000 := by
    simp only [dayOrder] at hlow hhigh
    omega
  have hlen := tailUnits_length t
  -- the year, and where the rest starts
  have hsplit : ∀ {y : JsStr} {n : Nat}, y.length = n → (y ++ t.tailUnits).drop n = t.tailUnits :=
    fun hy => List.drop_left' hy
  rw [iso_units]
  by_cases hplain : 0 ≤ t.year ∧ t.year ≤ 9999
  · have hy : JsonText.jsString (yearText t.year) = decimalUnits 4 t.year.toNat := by
      rw [yearText, if_pos hplain]
      rfl
    have hhead : ∀ u, (decimalUnits 4 t.year.toNat ++ t.tailUnits).head? = some u →
        48 ≤ u.toNat ∧ u.toNat ≤ 57 := fun u hu => head_jsDecimal hu
    have hminus : (decimalUnits 4 t.year.toNat ++ t.tailUnits).head? ≠ some 45 :=
      fun heq => absurd (hhead 45 heq).1 (by decide)
    have hplus : (decimalUnits 4 t.year.toNat ++ t.tailUnits).head? ≠ some 43 :=
      fun heq => absurd (hhead 43 heq).1 (by decide)
    have hvalue : digitsOf ((decimalUnits 4 t.year.toNat ++ t.tailUnits).take 4)
        = t.year.toNat := by
      rw [List.take_left' (decimalUnits_length 4 _), decimalUnits, digitsOf_decimal,
        Nat.mod_eq_of_lt (by omega)]
    rw [hy]
    simp only [fieldsOf, hminus, hplus, or_self, if_false, hsplit (decimalUnits_length 4 _),
      hmonth, hday, hhour, hminute, hsecond, hms, hlen, if_true, hvalue]
    rw [Int.toNat_of_nonneg hplain.1]
  · have hdigits : ∀ u : UInt16, digitsOf ((([u] ++ decimalUnits 6 t.year.natAbs
        ++ t.tailUnits).drop 1).take 6) = t.year.natAbs := by
      intro u
      rw [List.append_assoc, segment (show [u].length = 1 from rfl) (decimalUnits_length 6 _),
        decimalUnits, digitsOf_decimal, Nat.mod_eq_of_lt (by omega)]
    have hrest : ∀ u : UInt16, ([u] ++ decimalUnits 6 t.year.natAbs ++ t.tailUnits).drop 7
        = t.tailUnits := fun u => hsplit (by simp [decimalUnits_length])
    by_cases hneg : t.year < 0
    · have hy : JsonText.jsString (yearText t.year)
          = [45] ++ decimalUnits 6 t.year.natAbs := by
        rw [yearText, if_neg hplain, if_pos hneg]
        rfl
      rw [hy]
      have hhead : ([45] ++ decimalUnits 6 t.year.natAbs ++ t.tailUnits).head? = some 45 := rfl
      simp only [fieldsOf, hhead, true_or, if_true, hrest, hmonth, hday, hhour, hminute,
        hsecond, hms, hlen, hdigits]
      rw [show -(t.year.natAbs : Int) = t.year by omega]
    · have hy : JsonText.jsString (yearText t.year)
          = [43] ++ decimalUnits 6 t.year.natAbs := by
        rw [yearText, if_neg hplain, if_neg hneg]
        rfl
      rw [hy]
      have hhead : ([43] ++ decimalUnits 6 t.year.natAbs ++ t.tailUnits).head? = some 43 := rfl
      have hne : (some 43 : Option UInt16) ≠ some 45 := by decide
      simp only [fieldsOf, hhead, or_true, if_true, hne, if_false, hrest, hmonth, hday, hhour,
        hminute, hsecond, hms, hlen, hdigits]
      rw [show (t.year.natAbs : Int) = t.year by omega]

/-- What a `Date` writes is read as that date. -/
theorem dateOf_iso (t : Instant) : dateOf (JsonText.jsString t.iso) = some t := by
  have hfields := fieldsOf_iso t.isValid
  have hvalid : (fieldsOf (JsonText.jsString t.iso)).valid = true := by
    rw [hfields]
    exact t.isValid
  rw [dateOf, dif_pos hvalid]
  cases t
  simp_all

-- ================================================================= plain

/-- A character whose unit is plain. -/
def plainChar (c : Char) : Bool :=
  0x20 ≤ c.toNat && c.toNat < 0x7F && c.toNat != 34 && c.toNat != 92

theorem plain_units {text : List Char} (h : ∀ c ∈ text, plainChar c = true) :
    (∀ u ∈ JsonText.jsString text, Js.plainUnit u = true)
      ∧ (JsonText.jsString text).length = text.length := by
  induction text with
  | nil => exact ⟨by simp [JsonText.jsString], rfl⟩
  | cons c text ih =>
      obtain ⟨hunits, hlen⟩ := ih fun d hd => h d (List.mem_cons_of_mem c hd)
      have hc := h c List.mem_cons_self
      simp only [plainChar, Bool.and_eq_true, decide_eq_true_eq, bne_iff_ne, ne_eq] at hc
      obtain ⟨⟨⟨hlow, hhigh⟩, hquote⟩, hslash⟩ := hc
      have hunit : JsonText.units c = [UInt16.ofNat c.toNat] := by
        rw [JsonText.units, if_pos (by omega)]
      have hnat : (UInt16.ofNat c.toNat).toNat = c.toNat := by
        simp [Nat.mod_eq_of_lt (show c.toNat < 65536 by omega)]
      have hplain : Js.plainUnit (UInt16.ofNat c.toNat) = true := by
        simp only [Js.plainUnit, hnat, Bool.and_eq_true, decide_eq_true_eq, bne_iff_ne, ne_eq]
        refine ⟨⟨⟨hlow, hhigh⟩, fun heq => hquote ?_⟩, fun heq => hslash ?_⟩
        · rw [← hnat, heq]
          rfl
        · rw [← hnat, heq]
          rfl
      rw [jsString_cons, hunit]
      refine ⟨fun u hu => ?_, ?_⟩
      · rw [List.singleton_append, List.mem_cons] at hu
        obtain rfl | hu := hu
        · exact hplain
        · exact hunits u hu
      · rw [List.singleton_append, List.length_cons, List.length_cons, hlen]

theorem decimal_plain {k n : Nat} {c : Char} (h : c ∈ decimal k n) : plainChar c = true := by
  have hall : ∀ d < 10, plainChar (Nat.digitChar d) = true := by decide
  obtain ⟨d, hd, rfl⟩ := decimal_digit h
  exact hall d hd

theorem yearText_plain {year : Int} {c : Char} (h : c ∈ yearText year) : plainChar c = true := by
  have hsigns : plainChar '-' = true ∧ plainChar '+' = true := by decide
  unfold yearText at h
  split at h
  · exact decimal_plain h
  · obtain rfl | h := List.mem_cons.mp h
    · split
      · exact hsigns.1
      · exact hsigns.2
    · exact decimal_plain h

theorem iso_plain {t : TimeFields} {c : Char} (h : c ∈ t.iso) : plainChar c = true := by
  have hseps : ∀ x ∈ ['-', 'T', ':', '.', 'Z'], plainChar x = true :=
    List.all_iff_forall_prop.mp (by decide)
  simp only [TimeFields.iso, TimeFields.stem, List.mem_append, List.mem_cons,
    List.not_mem_nil, or_false] at h
  rcases h with ((((((h | h | h) | h | h) | h | h) | h | h) | h | h) | h | h) | h
  · exact yearText_plain h
  · exact hseps c (by simp [h])
  · exact decimal_plain h
  · exact hseps c (by simp [h])
  · exact decimal_plain h
  · exact hseps c (by simp [h])
  · exact decimal_plain h
  · exact hseps c (by simp [h])
  · exact decimal_plain h
  · exact hseps c (by simp [h])
  · exact decimal_plain h
  · exact hseps c (by simp [h])
  · exact decimal_plain h
  · exact hseps c (by simp [h])

end Mosaic.Lib
