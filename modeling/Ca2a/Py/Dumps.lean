/-
Writing JSON. `print` writes a value in the order its dictionaries have, in a
`Style`: how a code point of a string is escaped, and what separates items
and follows a key. `json.dumps` is one style (ASCII only, a space after each
separator); a canonical form is another.
-/
import Ca2a.Py.Loads

namespace Py

/-- How a printer writes strings and separators. -/
structure Style where
  esc : CodePoint → Str
  comma : Str
  colon : Str

/-- `sep.join(parts)`. -/
def join (sep : Str) : List Str → Str
  | [] => []
  | x :: xs => x ++ xs.flatMap fun y => sep ++ y

namespace Style

/-- A quoted string. -/
def quote (st : Style) (s : Str) : Str := cp '"' :: s.flatMap st.esc ++ [cp '"']

variable [Interp]

mutual
def print (st : Style) : Json → Str
  | .null => lit "null"
  | .bool true => lit "true"
  | .bool false => lit "false"
  | .int i => strInt i
  | .float f => Interp.floatRepr f
  | .str s => st.quote s
  | .arr xs => cp '[' :: join st.comma (st.printItems xs) ++ [cp ']']
  | .obj d => cp '{' :: join st.comma (st.printFields d) ++ [cp '}']

def printItems (st : Style) : List Json → List Str
  | [] => []
  | x :: xs => st.print x :: st.printItems xs

def printFields (st : Style) : List (Str × Json) → List Str
  | [] => []
  | (k, v) :: d => (st.quote k ++ st.colon ++ st.print v) :: st.printFields d
end

theorem printItems_eq (st : Style) (xs : List Json) : st.printItems xs = xs.map st.print := by
  induction xs with
  | nil => rfl
  | cons x xs ih => simp [printItems, ih]

/-- The text of one field. -/
def field (st : Style) (kv : Str × Json) : Str := st.quote kv.1 ++ st.colon ++ st.print kv.2

theorem printFields_eq (st : Style) (d : List (Str × Json)) : st.printFields d = d.map st.field := by
  induction d with
  | nil => rfl
  | cons kv d ih => simp [printFields, ih, field]

end Style

/-! ## The styles of the `json` module -/

/-- The escapes `json.dumps` writes by default: everything but printable ASCII is escaped. -/
def asciiEsc (c : CodePoint) : Str :=
  if c.val = 0x22 then lit "\\\""
  else if c.val = 0x5C then lit "\\\\"
  else if c.val = 0x0A then lit "\\n"
  else if c.val = 0x0D then lit "\\r"
  else if c.val = 0x09 then lit "\\t"
  else if c.val = 0x0C then lit "\\f"
  else if c.val = 0x08 then lit "\\b"
  else if 0x20 ≤ c.val ∧ c.val ≤ 0x7E then [c]
  else if c.val < 0x10000 then lit "\\u" ++ hexN 4 c.val
  else lit "\\u" ++ hexN 4 (0xD800 + (c.val - 0x10000) / 0x400) ++
    lit "\\u" ++ hexN 4 (0xDC00 + (c.val - 0x10000) % 0x400)

/-- `json.dumps` with its defaults. -/
def dumpsStyle : Style where
  esc := asciiEsc
  comma := lit ", "
  colon := lit ": "

/-- `json.dumps(j)`. -/
def dumps [Interp] (j : Json) : Str := dumpsStyle.print j

end Py
