/-
`json.loads` of octets. The encoding is told by the first octets, and decoding
passes unpaired surrogates on, whichever encoding it is.

How deep a document may nest depends on the interpreter's stack. So whether
the stack overflows while a text is read is a parameter.
-/
import Ca2a.Py.Buffer
import Ca2a.Py.LoadsFacts

namespace Py

/-- The encodings `json.detect_encoding` answers. -/
inductive Encoding
  | utf8
  | utf8Sig
  | utf16
  | utf16be
  | utf16le
  | utf32
  | utf32be
  | utf32le
  deriving DecidableEq, Repr

/-- `json.detect_encoding`: by a byte order mark, else by where the first octets are zero. -/
def detectEncoding (b : Bytes) : Encoding :=
  if [0, 0, 0xFE, 0xFF].isPrefixOf b || [0xFF, 0xFE, 0, 0].isPrefixOf b then .utf32
  else if [0xFE, 0xFF].isPrefixOf b || [0xFF, 0xFE].isPrefixOf b then .utf16
  else if [0xEF, 0xBB, 0xBF].isPrefixOf b then .utf8Sig
  else
    match b with
    | b0 :: b1 :: b2 :: b3 :: _ =>
      if b0 = 0 then if b1 ≠ 0 then .utf16be else .utf32be
      else if b1 = 0 then if b2 ≠ 0 ∨ b3 ≠ 0 then .utf16le else .utf32le
      else .utf8
    | [b0, b1] => if b0 = 0 then .utf16be else if b1 = 0 then .utf16le else .utf8
    | _ => .utf8

/-! ## One code point -/

/-- A code point of at least `low`, with the octets after it. -/
def codePoint? (low : Nat) (read : Nat × Bytes) : Option (CodePoint × Bytes) :=
  if h : low ≤ read.1 ∧ read.1 < 0x110000 then some (⟨read.1, h.2⟩, read.2) else none

/-- `n` continuation octets of UTF-8, after the bits read so far. -/
def continued? : (n bits : Nat) → Bytes → Option (Nat × Bytes)
  | 0, bits, b => some (bits, b)
  | _ + 1, _, [] => none
  | n + 1, bits, x :: b =>
    if 0x80 ≤ x.toNat ∧ x.toNat ≤ 0xBF then continued? n (bits * 64 + (x.toNat - 0x80)) b else none

/-- UTF-8 without overlong forms. Surrogates are read as any other code point. -/
def utf8Char? : Bytes → Option (CodePoint × Bytes)
  | [] => none
  | x :: b =>
    let lead := x.toNat
    if lead < 0x80 then codePoint? 0 (lead, b)
    else if 0xC2 ≤ lead ∧ lead ≤ 0xDF then (continued? 1 (lead - 0xC0) b).bind (codePoint? 0x80)
    else if 0xE0 ≤ lead ∧ lead ≤ 0xEF then (continued? 2 (lead - 0xE0) b).bind (codePoint? 0x800)
    else if 0xF0 ≤ lead ∧ lead ≤ 0xF4 then (continued? 3 (lead - 0xF0) b).bind (codePoint? 0x10000)
    else none

/-- An integer of the given octets. -/
def wordOf (big : Bool) (b : Bytes) : Nat := if big then ofBig b else ofLittle b

/-- UTF-16. A surrogate that is not one of a pair is read on its own. -/
def utf16Char? (big : Bool) : Bytes → Option (CodePoint × Bytes)
  | x :: y :: b =>
    let unit := wordOf big [x, y]
    let alone := codePoint? 0 (unit, b)
    match b with
    | z :: w :: rest =>
      let next := wordOf big [z, w]
      if 0xD800 ≤ unit ∧ unit ≤ 0xDBFF ∧ 0xDC00 ≤ next ∧ next ≤ 0xDFFF then
        codePoint? 0 (0x10000 + (unit - 0xD800) * 0x400 + (next - 0xDC00), rest)
      else alone
    | _ => alone
  | _ => none

/-- UTF-32 -/
def utf32Char? (big : Bool) : Bytes → Option (CodePoint × Bytes)
  | x :: y :: z :: w :: b => codePoint? 0 (wordOf big [x, y, z, w], b)
  | _ => none

/-! ## Texts -/

/-- Code point after code point. A code point takes an octet at least, so the length of `b` is fuel enough. -/
def decodeWith (next : Bytes → Option (CodePoint × Bytes)) : Nat → Bytes → Option Str
  | _, [] => some []
  | 0, _ :: _ => none
  | n + 1, b => do
    let (c, rest) ← next b
    let s ← decodeWith next n rest
    some (c :: s)

/-- `b.decode(encoding, "surrogatepass")` -/
def Encoding.decode? (encoding : Encoding) (b : Bytes) : Option Str :=
  match encoding with
  | .utf8 => decodeWith utf8Char? b.length b
  | .utf8Sig => decodeWith utf8Char? b.length (b.drop 3)
  -- the byte order mark tells the order, and is not part of the text
  | .utf16 => decodeWith (utf16Char? (b.head? = some 0xFE)) b.length (b.drop 2)
  | .utf16be => decodeWith (utf16Char? true) b.length b
  | .utf16le => decodeWith (utf16Char? false) b.length b
  | .utf32 => decodeWith (utf32Char? (b.head? = some 0)) b.length (b.drop 4)
  | .utf32be => decodeWith (utf32Char? true) b.length b
  | .utf32le => decodeWith (utf32Char? false) b.length b

section
variable {ε : Type} [Interp]

/-- `json.loads(b)` -/
def jsonLoads (overflows : Str → Bool) (b : Bytes) : Except (Raised ε) Json :=
  match (detectEncoding b).decode? b with
  | none => .error (.builtin .unicodeDecodeError (Interp.errorText "bytes.decode" (hex b)))
  | some s =>
    if overflows s then .error (.builtin .recursionError (Interp.errorText "json.loads" s)) else loads dictHook s

/-- What `json.loads` may raise: a `ValueError`, or a `RecursionError`. -/
def IsJsonError (e : Raised ε) : Prop := ∃ k t, e = .builtin k t ∧ (k.isValueError = true ∨ k = .recursionError)

/-- **What `json.loads` raises.** -/
theorem jsonLoads_spec (overflows : Str → Bool) (b : Bytes) :
    Spec (jsonLoads (ε := ε) overflows b) (fun _ => True) IsJsonError := by
  unfold jsonLoads
  split
  · exact ⟨_, _, rfl, .inl rfl⟩
  · split
    · exact ⟨_, _, rfl, .inr rfl⟩
    · exact (ScanInvariant.dictHook fun k t hk => ⟨k, t, rfl, .inl hk⟩).loads _

end

end Py
