/-
JSON values as the handlers see them after `json.loads`, with the Python
operations they apply to one: truth value, `dict.get`, `str` and `int`.

A number with a fraction or an exponent carries its exact value (`none` for NaN
and the infinities, which Python's parser accepts) and the text `str` gives it.
The text of a list or a dict and the reading of a text by `int` are taken as
parameters of the functions that need them.
-/
import Mathlib.Data.Rat.Defs
import Mathlib.Tactic

namespace VpnPortal

inductive Json where
  | null
  | bool (b : Bool)
  | int (n : ℤ)
  | float (value : Option ℚ) (text : String)
  | str (s : String)
  | arr (items : List Json)
  | obj (fields : List (String × Json))

namespace Json

/-- `bool(x)` -/
def truthy : Json → Bool
  | null => false
  | bool b => b
  | int n => n != 0
  | float value _ => value != some 0
  | str s => s != ""
  | arr items => !items.isEmpty
  | obj fields => !fields.isEmpty

/-- `d.get(key)` on the fields of a dict; a missing key reads as `None`. -/
def get (fields : List (String × Json)) (key : String) : Json :=
  (fields.lookup key).getD null

/-- `x == s` for a text `s`. -/
def isStr : Json → String → Bool
  | str t, s => t == s
  | _, _ => false

/-- `str(x)`; `reprOf` is the text of a list or a dict. -/
def toText (reprOf : Json → String) : Json → String
  | null => "None"
  | bool b => if b then "True" else "False"
  | int n => toString n
  | float _ text => text
  | str s => s
  | arr items => reprOf (arr items)
  | obj fields => reprOf (obj fields)

/-- `int(x)`, `none` where Python raises; `readInt` is `int` of a text. -/
def toInt (readInt : String → Option ℤ) : Json → Option ℤ
  | bool b => some (if b then 1 else 0)
  | int n => some n
  | float value _ => value.map fun q => q.num.tdiv q.den
  | str s => readInt s
  | _ => none

end Json

end VpnPortal
