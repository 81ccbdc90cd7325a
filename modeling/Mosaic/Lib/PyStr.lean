/-
The parts of Python's `str` the modelled code leans on: whitespace,
`strip`, blankness, and `lower` as far as an ASCII pattern can see it.

A Python `str` is modelled by `String`: both are sequences of code
points, and every string that reaches the modelled code has passed a
UTF-8 decode or a validator, so lone surrogates do not occur. `len` is
the number of code points on both sides.
-/
import Mathlib

namespace Mosaic.Lib.PyStr

/-- `str.isspace` of one code point: the bidirectional types WS, B and S
plus the category Zs. -/
def isSpace (c : Char) : Bool :=
  let n := c.toNat
  (0x09 ≤ n && n ≤ 0x0D) || (0x1C ≤ n && n ≤ 0x20) || n == 0x85 || n == 0xA0
    || n == 0x1680 || (0x2000 ≤ n && n ≤ 0x200A) || n == 0x2028 || n == 0x2029
    || n == 0x202F || n == 0x205F || n == 0x3000

/-- `len`. -/
def len (s : String) : Nat := s.toList.length

/-- `str.strip()`. -/
def strip (s : String) : String :=
  String.ofList ((s.toList.dropWhile isSpace).rdropWhile isSpace)

/-- `not s.strip()`: empty or all whitespace. -/
def blank (s : String) : Bool := s.toList.all isSpace

/-- `str.lower` on the code points whose lower case is ASCII: the ASCII
letters and the Kelvin sign. Any other code point lowers to something
outside ASCII, which the patterns applied afterwards reject either
way. -/
def lowerChar (c : Char) : Char :=
  if c.toNat = 0x212A then 'k' else c.toLower

/-- `str.lower`, up to acceptance by an ASCII-only pattern. -/
def lower (s : String) : String := String.ofList (s.toList.map lowerChar)

/-- `str.upper` of one code point, as far as it is ASCII: the ASCII
letters, and the code points whose upper case is spelled in ASCII (the
dotless i, the long s, the sharp s and the Latin ligatures). -/
def upperChar (c : Char) : List Char :=
  match c.toNat with
  | 0x0131 => ['I']
  | 0x017F => ['S']
  | 0x00DF => ['S', 'S']
  | 0xFB00 => ['F', 'F']
  | 0xFB01 => ['F', 'I']
  | 0xFB02 => ['F', 'L']
  | 0xFB03 => ['F', 'F', 'I']
  | 0xFB04 => ['F', 'F', 'L']
  | 0xFB05 => ['S', 'T']
  | 0xFB06 => ['S', 'T']
  | _ => [c.toUpper]

/-- `str.upper`, up to comparison with ASCII strings. -/
def upper (s : String) : String := String.ofList (s.toList.flatMap upperChar)

/-- A string is blank exactly when stripping leaves nothing. -/
theorem strip_eq_empty_iff (s : String) : strip s = "" ↔ blank s = true := by
  have hofList : ∀ l : List Char, String.ofList l = "" ↔ l = [] := by
    intro l
    constructor
    · intro h
      have := congrArg String.toList h
      simpa using this
    · rintro rfl
      rfl
  unfold strip blank
  rw [hofList, List.rdropWhile_eq_nil_iff, List.all_eq_true]
  constructor
  · intro h
    -- nothing but space survives the front pass, and it starts with none
    refine List.dropWhile_eq_nil_iff.mp ?_
    cases hd : s.toList.dropWhile isSpace with
    | nil => rfl
    | cons d l =>
        have hns := List.head?_dropWhile_not isSpace s.toList
        rw [hd] at h hns
        simp [h d List.mem_cons_self] at hns
  · intro h c hc
    exact h c ((List.dropWhile_sublist _).subset hc)

end Mosaic.Lib.PyStr
