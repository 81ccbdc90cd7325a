/-
JSON values as Python's decoder hands them over, with the type tests the
modelled validators use.

Integers and floats are different Python types, and `isinstance(x, int)`
is true of booleans, which every validator here excludes first; both
distinctions are kept. A float carries only its spelling: no modelled
function computes with one.
-/
import Mathlib

namespace Mosaic.Lib

/-- A decoded JSON value. -/
inductive Json
  | null
  | bool (b : Bool)
  | int (n : Int)
  | float (spelling : String)
  | str (s : String)
  | arr (items : List Json)
  | obj (fields : List (String × Json))

namespace Json

/-- `mapping.get(key)` of an object's fields; absent is Python's
`None`. -/
def field (fields : List (String × Json)) (key : String) : Json :=
  match fields.find? fun f => f.1 == key with
  | some f => f.2
  | none => .null

/-- The value as a `str`, if it is one. -/
def str? : Json → Option String
  | .str s => some s
  | _ => none

/-- The value as an `int` that is not a `bool`, if it is one. -/
def int? : Json → Option Int
  | .int n => some n
  | _ => none

/-- The value as a mapping, if it is one. -/
def obj? : Json → Option (List (String × Json))
  | .obj fields => some fields
  | _ => none

end Json

end Mosaic.Lib
