/-
Python text and bytes, as far as a protocol that hashes and signs its
messages depends on them.

A Python `str` is a list of code points, unpaired surrogates included: they
reach a program from `json.loads`, and `str.encode` refuses them. That is
the one way an otherwise total text operation raises, so it is kept: `utf8`
and `utf16be` are partial, and what they accept is `Clean`.

Tables that belong to the interpreter and not to the language (which
non-ASCII code points are decimal digits, spaces or printable, how a float
reads and prints, the wording of a built-in exception) are parameters, in
`Interp`.
-/
import Mathlib

namespace Py

/-- A code point of a Python string: 0 to 0x10FFFF, surrogates included. -/
abbrev CodePoint := Fin 0x110000

/-- A Python `str`. -/
abbrev Str := List CodePoint

/-- A Python `bytes`. -/
abbrev Bytes := List UInt8

/-- The code point of a character. -/
def cp (c : Char) : CodePoint :=
  ⟨c.toNat, by
    have h := c.valid
    simp only [UInt32.isValidChar, Nat.isValidChar] at h
    simp only [Char.toNat]
    omega⟩

/-- A string literal of the source. -/
def lit (s : String) : Str := s.toList.map cp

theorem cp_injective : Function.Injective cp := by
  intro a b h
  simp only [cp, Fin.mk.injEq] at h
  exact Char.toNat_inj.mp h

@[simp] theorem cp_inj {a b : Char} : cp a = cp b ↔ a = b := cp_injective.eq_iff

@[simp] theorem lit_inj {s t : String} : lit s = lit t ↔ s = t := by
  constructor
  · intro h
    have := List.map_injective_iff.mpr cp_injective h
    exact String.toList_inj.mp this
  · rintro rfl; rfl

/-! ## Exceptions -/

/-- The exception classes an application does not define itself: Python's own, those of `struct` and of
`http.client`, and the two a signature check and an authenticated cipher raise. -/
inductive ExcKind
  | valueError
  | unicodeEncodeError
  | unicodeDecodeError
  | typeError
  | keyError
  | attributeError
  | indexError
  | overflowError
  | recursionError
  | structError
  | osError
  | httpException
  | invalidSignature
  | invalidTag
  deriving DecidableEq, Repr

/-- What `except ValueError` catches: the Unicode errors are subclasses. -/
def ExcKind.isValueError : ExcKind → Bool
  | .valueError | .unicodeEncodeError | .unicodeDecodeError => true
  | _ => false

/-- A raised exception: a foreign one with its text, or one of the application's own. -/
inductive Raised (ε : Type)
  | builtin (kind : ExcKind) (text : Str)
  | app (e : ε)

/-! ## The interpreter's tables -/

/-- A Python float: the rational a finite double denotes (`-0.0` apart), or a
non-finite one. -/
inductive PyFloat
  | finite (q : ℚ)
  | negZero
  | nan
  | inf (negative : Bool)
  deriving DecidableEq

namespace PyFloat

/-- `math.isfinite` -/
def isFinite : PyFloat → Bool
  | .finite _ | .negZero => true
  | .nan | .inf _ => false

/-- The point of the extended line, unless it is a `nan`. -/
def value? : PyFloat → Option (WithBot (WithTop ℚ))
  | .finite q => some ((q : WithTop ℚ) : WithBot (WithTop ℚ))
  | .negZero => some ((0 : WithTop ℚ) : WithBot (WithTop ℚ))
  | .nan => none
  | .inf true => some ⊥
  | .inf false => some ((⊤ : WithTop ℚ) : WithBot (WithTop ℚ))

/-- `a <= b`; false when one is a `nan`. -/
def le (a b : PyFloat) : Bool :=
  match a.value?, b.value? with
  | some x, some y => decide (x ≤ y)
  | _, _ => false

/-- `a < b`; false when one is a `nan`. -/
def lt (a b : PyFloat) : Bool :=
  match a.value?, b.value? with
  | some x, some y => decide (x < y)
  | _, _ => false

end PyFloat

/-- What the language leaves to the interpreter and its Unicode database. The
tables are only read at code points from 128 on; below that the definitions
in this file say what happens. -/
class Interp where
  /-- The value of a non-ASCII decimal digit (`Nd`). -/
  decimal : CodePoint → Option (Fin 10)
  /-- A non-ASCII space. -/
  space : CodePoint → Bool
  /-- `str.isprintable`, for one non-ASCII code point. -/
  printable : CodePoint → Bool
  /-- `float(text)` for the text of a JSON number. -/
  float : Str → PyFloat
  /-- `repr` of a float. -/
  floatRepr : PyFloat → Str
  /-- The sum of two floats, rounded. -/
  floatAdd : PyFloat → PyFloat → PyFloat
  /-- The text of the exception an operation raises on an argument. -/
  errorText : (operation : String) → (argument : Str) → Str
  /-- A surrogate is no decimal digit, -/
  decimal_surrogate : ∀ c : CodePoint, 0xD800 ≤ c.val → c.val ≤ 0xDFFF → decimal c = none
  /-- and no space. -/
  space_surrogate : ∀ c : CodePoint, 0xD800 ≤ c.val → c.val ≤ 0xDFFF → space c = false

/-- An interpreter whose tables stop at ASCII, and that adds without rounding. -/
@[reducible] def Interp.ascii : Interp where
  decimal _ := none
  space _ := false
  printable _ := false
  float _ := .nan
  floatRepr _ := []
  floatAdd
    | .finite a, .finite b => .finite (a + b)
    | _, _ => .nan
  errorText _ _ := []
  decimal_surrogate _ _ _ := rfl
  space_surrogate _ _ _ := rfl

/-! ## Hexadecimal -/

/-- The lowercase digit of `n < 16`. -/
def hexDigit (n : Nat) : CodePoint := cp (Nat.digitChar n)

/-- `n` in `w` lowercase hex digits, as `f"{n:0wx}"` prints it when it fits. -/
def hexN : Nat → Nat → Str
  | 0, _ => []
  | w + 1, n => hexN w (n / 16) ++ [hexDigit (n % 16)]

/-- `bytes.hex`. -/
def hex (b : Bytes) : Str := b.flatMap fun x => hexN 2 x.toNat

/-- The value of a hex digit in either case. -/
def hexVal? (c : CodePoint) : Option Nat :=
  if 0x30 ≤ c.val ∧ c.val ≤ 0x39 then some (c.val - 0x30)
  else if 0x61 ≤ c.val ∧ c.val ≤ 0x66 then some (c.val - 0x57)
  else if 0x41 ≤ c.val ∧ c.val ≤ 0x46 then some (c.val - 0x37)
  else none

/-- The whitespace C's `isspace` knows. -/
def isAsciiSpace (c : CodePoint) : Bool := c.val = 0x20 || (0x09 ≤ c.val && c.val ≤ 0x0D)

/-- `bytes.fromhex`: pairs of hex digits, with ASCII whitespace allowed before
and after each pair. -/
def fromHex? : Str → Option Bytes
  | [] => some []
  | c :: rest =>
    if isAsciiSpace c then fromHex? rest
    else
      match rest with
      | [] => none
      | d :: rest' => do
        let h ← hexVal? c
        let l ← hexVal? d
        let bs ← fromHex? rest'
        some (UInt8.ofNat (16 * h + l) :: bs)

/-- `bytes.fromhex`, raising. -/
def fromHex {ε : Type} [Interp] (s : Str) : Except (Raised ε) Bytes :=
  match fromHex? s with
  | some b => .ok b
  | none => .error (.builtin .valueError (Interp.errorText "bytes.fromhex" s))

/-! ## UTF-8 -/

/-- A code point `str.encode` accepts. -/
def CodePoint.scalar (c : CodePoint) : Prop := ¬ (0xD800 ≤ c.val ∧ c.val ≤ 0xDFFF)

instance (c : CodePoint) : Decidable c.scalar := inferInstanceAs (Decidable (¬ _))

/-- A string with no surrogate code point, the ones `str.encode` accepts. -/
def Clean (s : Str) : Prop := ∀ c ∈ s, CodePoint.scalar c

instance (s : Str) : Decidable (Clean s) := List.decidableBAll CodePoint.scalar s

/-- The character of a scalar code point. -/
def CodePoint.char (c : CodePoint) (h : c.scalar) : Char :=
  Char.ofNatAux c.val (by
    have := c.isLt
    simp only [CodePoint.scalar] at h
    simp only [Nat.isValidChar]
    omega)

/-- The UTF-8 octets of a code point, when it has any. -/
def CodePoint.utf8? (c : CodePoint) : Option Bytes :=
  if h : c.scalar then some (String.utf8EncodeChar (c.char h)) else none

/-- `s.encode("utf-8")`. -/
def utf8? : Str → Option Bytes
  | [] => some []
  | c :: s => do
    let b ← CodePoint.utf8? c
    let bs ← utf8? s
    some (b ++ bs)

/-- `s.encode("utf-8")`, raising. -/
def utf8 {ε : Type} [Interp] (s : Str) : Except (Raised ε) Bytes :=
  match utf8? s with
  | some b => .ok b
  | none => .error (.builtin .unicodeEncodeError (Interp.errorText "str.encode" s))

/-- `b.decode("utf-8")`: strict, so overlong forms and encoded surrogates are refused. -/
def fromUtf8? (b : Bytes) : Option Str := (b.toByteArray.utf8Decode?).map fun cs => cs.toList.map cp

/-! ## UTF-16 -/

/-- The UTF-16 code units of a code point. -/
def CodePoint.units (c : CodePoint) : List Nat :=
  if c.val < 0x10000 then [c.val]
  else [0xD800 + (c.val - 0x10000) / 0x400, 0xDC00 + (c.val - 0x10000) % 0x400]

/-- The UTF-16 code units of a string. -/
def utf16Units (s : Str) : List Nat := s.flatMap CodePoint.units

/-- `s.encode("utf-16-be")`. -/
def utf16be? (s : Str) : Option Bytes :=
  if Clean s then some ((utf16Units s).flatMap fun u => [UInt8.ofNat (u / 256), UInt8.ofNat (u % 256)]) else none

/-- `s.encode("utf-16-be")`, raising. -/
def utf16be {ε : Type} [Interp] (s : Str) : Except (Raised ε) Bytes :=
  match utf16be? s with
  | some b => .ok b
  | none => .error (.builtin .unicodeEncodeError (Interp.errorText "str.encode" s))

/-! ## Decimal integers -/

/-- The decimal digits of `n`. -/
def decimal (n : Nat) : Str := (Nat.toDigits 10 n).map cp

/-- `str` of an integer. (The interpreter's limit on its length concerns integers no JSON
text can hold, and is not modelled.) -/
def strInt : Int → Str
  | .ofNat n => decimal n
  | .negSucc n => cp '-' :: decimal (n + 1)

/-- An ASCII digit. -/
def isDigit (c : CodePoint) : Bool := 0x30 ≤ c.val && c.val ≤ 0x39

/-- The number a list of ASCII digits spells. -/
def digitsVal (ds : Str) : Nat := ds.foldl (fun a d => 10 * a + (d.val - 0x30)) 0

/-- The longest string of digits `int` converts by default. -/
def maxStrDigits : Nat := 4300

/-- Non-ASCII spaces and decimals of `int`'s argument rewritten to ASCII; any
other non-ASCII code point becomes one `int` refuses. -/
def toAsciiDecimal [Interp] (c : CodePoint) : CodePoint :=
  if c.val < 128 then c
  else if Interp.space c then cp ' '
  else match Interp.decimal c with
    | some d => hexDigit d.val
    | none => cp '?'

/-- The digits of a base-10 literal: groups of digits joined by single underscores. -/
def literalDigits? (s : Str) : Option Str :=
  let groups := s.splitOn (cp '_')
  if groups.all (fun g => !g.isEmpty && g.all isDigit) then some groups.flatten else none

/-- `int(s)` for a string. -/
def int? [Interp] (s : Str) : Option Int :=
  let t := ((s.map toAsciiDecimal).dropWhile isAsciiSpace).rdropWhile isAsciiSpace
  let body := fun (r : Str) => (literalDigits? r).bind fun ds =>
    if ds.length ≤ maxStrDigits then some (digitsVal ds) else none
  match t with
  | [] => none
  | c :: r =>
    if c = cp '-' then (body r).map fun n => -(n : Int)
    else if c = cp '+' then (body r).map fun n => (n : Int)
    else (body (c :: r)).map fun n => (n : Int)

/-! ## `repr` of a string -/

/-- One code point of `repr`, inside quotes `q`. -/
def reprChar [Interp] (q c : CodePoint) : Str :=
  if c = q ∨ c = cp '\\' then [cp '\\', c]
  else if c = cp '\t' then lit "\\t"
  else if c = cp '\n' then lit "\\n"
  else if c = cp '\r' then lit "\\r"
  else if c.val < 0x20 ∨ c.val = 0x7F then lit "\\x" ++ hexN 2 c.val
  else if c.val < 0x7F then [c]
  else if Interp.printable c then [c]
  else if c.val ≤ 0xFF then lit "\\x" ++ hexN 2 c.val
  else if c.val ≤ 0xFFFF then lit "\\u" ++ hexN 4 c.val
  else lit "\\U" ++ hexN 8 c.val

/-- `repr(s)`: single quotes, unless the string has one and no double quote. -/
def repr [Interp] (s : Str) : Str :=
  let q := if cp '\'' ∈ s ∧ cp '"' ∉ s then cp '"' else cp '\''
  q :: s.flatMap (reprChar q) ++ [q]

end Py
