/-
`json.loads`: the decoder of Python's `json` module, over the text of a
document. Recursion is on fuel; a text's own length is enough of it, since
every call but the last has read a code point.

A number with neither fraction nor exponent is an `int`, refused above the
interpreter's digit limit; any other is a `float`, read by the interpreter.
`NaN`, `Infinity` and `-Infinity` are accepted, as the module does by
default. `object_pairs_hook` is a parameter: `dict` unless given.
-/
import Ca2a.Py.Json

namespace Py

variable {ε : Type} [Interp]

/-- The decoder's whitespace. -/
def isWs (c : CodePoint) : Bool := c = cp ' ' || c = cp '\t' || c = cp '\n' || c = cp '\r'

def skipWs (s : Str) : Str := s.dropWhile isWs

/-- `JSONDecodeError`, a `ValueError`. -/
def decodeError {α : Type} : Except (Raised ε) α :=
  .error (.builtin .valueError (Interp.errorText "json.loads" []))

/-- The text after `c`. -/
def expect (c : CodePoint) (s : Str) : Except (Raised ε) Str :=
  match s with
  | d :: r => if d = c then .ok r else decodeError
  | [] => decodeError

/-- The text after the prefix `p`. -/
def consume? (p s : Str) : Option Str := if p.isPrefixOf s then some (s.drop p.length) else none

/-! ## Strings -/

/-- Four hex digits. -/
def hex4? : Str → Option (Nat × Str)
  | a :: b :: c :: d :: r => do
    let a ← hexVal? a
    let b ← hexVal? b
    let c ← hexVal? c
    let d ← hexVal? d
    some (((a * 16 + b) * 16 + c) * 16 + d, r)
  | _ => none

/-- The single-character escapes. -/
def shortEscape? (c : CodePoint) : Option CodePoint :=
  if c = cp '"' then some (cp '"')
  else if c = cp '\\' then some (cp '\\')
  else if c = cp '/' then some (cp '/')
  else if c = cp 'b' then some 0x08
  else if c = cp 'f' then some 0x0C
  else if c = cp 'n' then some 0x0A
  else if c = cp 'r' then some 0x0D
  else if c = cp 't' then some 0x09
  else none

/-- What follows a backslash. A `\u` escape of a high surrogate takes a `\u`
escape of a low one with it; a surrogate on its own stays one. -/
def scanEscape? : Str → Option (CodePoint × Str)
  | [] => none
  | c :: r =>
    if c = cp 'u' then do
      let (hi, r₁) ← hex4? r
      let alone := some (Fin.ofNat 0x110000 hi, r₁)
      if 0xD800 ≤ hi ∧ hi ≤ 0xDBFF then
        match consume? [cp '\\', cp 'u'] r₁ with
        | some r₂ => do
          let (lo, r₃) ← hex4? r₂
          if 0xDC00 ≤ lo ∧ lo ≤ 0xDFFF then
            some (Fin.ofNat 0x110000 (0x10000 + (hi - 0xD800) * 0x400 + (lo - 0xDC00)), r₃)
          else alone
        | none => alone
      else alone
    else (shortEscape? c).map fun e => (e, r)

/-- The string up to its closing quote, and the text after it. Control characters are refused. -/
def scanString? : Nat → Str → Option (Str × Str)
  | 0, _ => none
  | _ + 1, [] => none
  | n + 1, c :: r =>
    if c = cp '"' then some ([], r)
    else if c = cp '\\' then do
      let (e, r₁) ← scanEscape? r
      let (s, r₂) ← scanString? n r₁
      some (e :: s, r₂)
    else if c.val < 0x20 then none
    else do
      let (s, r₁) ← scanString? n r
      some (c :: s, r₁)

/-- A string after its opening quote. -/
def scanString (s : Str) : Except (Raised ε) (Str × Str) :=
  match scanString? (s.length + 1) s with
  | some p => .ok p
  | none => decodeError

/-! ## Numbers -/

/-- `(\.[0-9]+)?` -/
def scanFrac : Str → Str × Str
  | c :: d :: r =>
    if c = cp '.' ∧ isDigit d then (c :: d :: r.takeWhile isDigit, r.dropWhile isDigit) else ([], c :: d :: r)
  | s => ([], s)

/-- `([eE][-+]?[0-9]+)?` -/
def scanExp : Str → Str × Str
  | [] => ([], [])
  | e :: r =>
    if e = cp 'e' ∨ e = cp 'E' then
      let signed := match r with
        | c :: r₁ => if c = cp '+' ∨ c = cp '-' then ([c], r₁) else ([], r)
        | [] => ([], [])
      if (signed.2.takeWhile isDigit).isEmpty then ([], e :: r)
      else (e :: signed.1 ++ signed.2.takeWhile isDigit, signed.2.dropWhile isDigit)
    else ([], e :: r)

/-- The number with the given sign and integer digits, given the text after them. -/
def finishNumber (negative : Bool) (ds r : Str) : Except (Raised ε) (Json × Str) :=
  let (frac, r₁) := scanFrac r
  let (exp, r₂) := scanExp r₁
  if frac.isEmpty && exp.isEmpty then
    if ds.length ≤ maxStrDigits then
      .ok (.int (if negative then -(digitsVal ds : Int) else (digitsVal ds : Int)), r₂)
    else decodeError
  else .ok (.float (Interp.float ((if negative then [cp '-'] else []) ++ ds ++ frac ++ exp)), r₂)

/-- `0|[1-9][0-9]*`, and the rest of the number. -/
def scanDigits (negative : Bool) : Str → Except (Raised ε) (Json × Str)
  | [] => decodeError
  | d :: r =>
    if d = cp '0' then finishNumber negative [d] r
    else if isDigit d then finishNumber negative (d :: r.takeWhile isDigit) (r.dropWhile isDigit)
    else decodeError

/-- A number, `-Infinity` included. -/
def scanNumber : Str → Except (Raised ε) (Json × Str)
  | [] => decodeError
  | c :: r =>
    if c = cp '-' then
      match consume? (lit "Infinity") r with
      | some r₁ => .ok (.float (.inf true), r₁)
      | none => scanDigits true r
    else scanDigits false (c :: r)

/-- A word, or a number where no word starts. -/
def scanAtom (s : Str) : Except (Raised ε) (Json × Str) :=
  match consume? (lit "null") s with
  | some r => .ok (.null, r)
  | none =>
  match consume? (lit "true") s with
  | some r => .ok (.bool true, r)
  | none =>
  match consume? (lit "false") s with
  | some r => .ok (.bool false, r)
  | none =>
  match consume? (lit "NaN") s with
  | some r => .ok (.float .nan, r)
  | none =>
  match consume? (lit "Infinity") s with
  | some r => .ok (.float (.inf false), r)
  | none => scanNumber s

/-! ## Values -/

/-- What an object becomes, given its items in the order of the text. -/
abbrev PairsHook (ε : Type) := List (Str × Json) → Except (Raised ε) Json

/-- The default: a dictionary, where the last of two equal keys wins. -/
def dictHook : PairsHook ε := fun pairs => .ok (.obj (Dict.update [] pairs))

/-- The items as they stand in the text. -/
def pairsHook : PairsHook ε := fun pairs => .ok (.obj pairs)

mutual
/-- `scan_once`: the value the text starts with, and the text after it. -/
def scanValue (hook : PairsHook ε) : Nat → Str → Except (Raised ε) (Json × Str)
  | 0, _ => decodeError
  | _ + 1, [] => decodeError
  | n + 1, c :: r =>
    if c = cp '"' then do
      let (s, r₁) ← scanString r
      .ok (.str s, r₁)
    else if c = cp '[' then
      match consume? [cp ']'] (skipWs r) with
      | some r₁ => .ok (.arr [], r₁)
      | none => do
        let (xs, r₁) ← scanItems hook n (skipWs r)
        .ok (.arr xs, r₁)
    else if c = cp '{' then
      match consume? [cp '}'] (skipWs r) with
      | some r₁ => do
        let j ← hook []
        .ok (j, r₁)
      | none => do
        let (d, r₁) ← scanFields hook n (skipWs r)
        let j ← hook d
        .ok (j, r₁)
    else scanAtom (c :: r)

/-- The items of a list up to its closing bracket. -/
def scanItems (hook : PairsHook ε) : Nat → Str → Except (Raised ε) (List Json × Str)
  | 0, _ => decodeError
  | n + 1, s => do
    let (x, r) ← scanValue hook n s
    match consume? [cp ']'] (skipWs r) with
    | some r₁ => .ok ([x], r₁)
    | none => do
      let r₁ ← expect (cp ',') (skipWs r)
      let (xs, r₂) ← scanItems hook n (skipWs r₁)
      .ok (x :: xs, r₂)

/-- The items of an object up to its closing brace. -/
def scanFields (hook : PairsHook ε) : Nat → Str → Except (Raised ε) (List (Str × Json) × Str)
  | 0, _ => decodeError
  | n + 1, s => do
    let r ← expect (cp '"') s
    let (k, r₁) ← scanString r
    let r₂ ← expect (cp ':') (skipWs r₁)
    let (v, r₃) ← scanValue hook n (skipWs r₂)
    match consume? [cp '}'] (skipWs r₃) with
    | some r₄ => .ok ([(k, v)], r₄)
    | none => do
      let r₄ ← expect (cp ',') (skipWs r₃)
      let (d, r₅) ← scanFields hook n (skipWs r₄)
      .ok ((k, v) :: d, r₅)
end

/-- `json.loads(s, object_pairs_hook=hook)` for a string. -/
def loads (hook : PairsHook ε) (s : Str) : Except (Raised ε) Json :=
  if s.head? = some 0xFEFF then decodeError
  else do
    let t := skipWs s
    let (j, r) ← scanValue hook (t.length + 1) t
    if (skipWs r).isEmpty then .ok j else decodeError

/-- `b.decode("utf-8")`, raising. -/
def decodeUtf8 (b : Bytes) : Except (Raised ε) Str :=
  match fromUtf8? b with
  | some s => .ok s
  | none => .error (.builtin .unicodeDecodeError (Interp.errorText "bytes.decode" (hex b)))

/-- `json.loads(b.decode("utf-8"), object_pairs_hook=hook)`. -/
def loadsUtf8 (hook : PairsHook ε) (b : Bytes) : Except (Raised ε) Json := do
  let s ← decodeUtf8 b
  loads hook s

end Py
