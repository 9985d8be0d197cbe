/-
`repr` and `str` of a value, as the texts of errors show them.
-/
import Ca2a.Py.Dumps

namespace Py

/-- `repr` of a list of strings. -/
def reprList [Interp] (l : List Str) : Str := cp '[' :: join (lit ", ") (l.map repr) ++ [cp ']']

namespace Json

/-- `type(v).__name__`. -/
def typeName : Json → Str
  | .null => lit "NoneType"
  | .bool _ => lit "bool"
  | .int _ => lit "int"
  | .float _ => lit "float"
  | .str _ => lit "str"
  | .arr _ => lit "list"
  | .obj _ => lit "dict"

/-- The string a value is, if it is one. -/
def str? : Json → Option Str
  | .str s => some s
  | _ => none

theorem str?_eq_some_iff {j : Json} {s : Str} : j.str? = some s ↔ j = .str s := by
  cases j <;> simp [str?]

variable [Interp]

mutual
/-- `repr(v)`. -/
def repr : Json → Str
  | .null => lit "None"
  | .bool true => lit "True"
  | .bool false => lit "False"
  | .int i => strInt i
  | .float f => Interp.floatRepr f
  | .str s => Py.repr s
  | .arr xs => cp '[' :: join (lit ", ") (reprItems xs) ++ [cp ']']
  | .obj d => cp '{' :: join (lit ", ") (reprFields d) ++ [cp '}']

def reprItems : List Json → List Str
  | [] => []
  | x :: xs => repr x :: reprItems xs

def reprFields : List (Str × Json) → List Str
  | [] => []
  | (k, v) :: d => (Py.repr k ++ lit ": " ++ repr v) :: reprFields d
end

/-- `str(v)`. -/
def text : Json → Str
  | .str s => s
  | j => repr j

end Json

end Py
