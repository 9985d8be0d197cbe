/-
`base64.urlsafe_b64decode`, which is lenient: what is not a digit is skipped,
and what follows the padding is not looked at.
-/
import Ca2a.Py.Text

namespace Py

/-- The value of a digit of the standard alphabet. -/
def base64Val? (c : CodePoint) : Option Nat :=
  if 0x41 ≤ c.val ∧ c.val ≤ 0x5A then some (c.val - 0x41)
  else if 0x61 ≤ c.val ∧ c.val ≤ 0x7A then some (c.val - 0x61 + 26)
  else if 0x30 ≤ c.val ∧ c.val ≤ 0x39 then some (c.val - 0x30 + 52)
  else if c = cp '+' then some 62
  else if c = cp '/' then some 63
  else none

/-- `binascii.a2b_base64`, with `quad` digits of the current group read, `pads` paddings after them and the
bits `left` over. -/
def a2bBase64? : (quad pads left : Nat) → Str → Option Bytes
  | quad, _, _, [] => if quad = 0 then some [] else none
  | quad, pads, left, c :: rest =>
    if c = cp '=' then
      if 2 ≤ quad then
        if 4 ≤ quad + (pads + 1) then some [] else a2bBase64? quad (pads + 1) left rest
      else a2bBase64? quad pads left rest
    else
      match base64Val? c with
      | none => a2bBase64? quad pads left rest
      | some v =>
        match quad with
        | 0 => a2bBase64? 1 0 v rest
        | 1 => (a2bBase64? 2 0 (v % 16) rest).map (UInt8.ofNat (left * 4 + v / 16) :: ·)
        | 2 => (a2bBase64? 3 0 (v % 4) rest).map (UInt8.ofNat (left * 16 + v / 4) :: ·)
        | _ => (a2bBase64? 0 0 0 rest).map (UInt8.ofNat (left * 64 + v) :: ·)

/-- The URL-safe digits, as the standard ones. -/
def urlsafeTranslate (c : CodePoint) : CodePoint :=
  if c = cp '-' then cp '+' else if c = cp '_' then cp '/' else c

/-- `base64.urlsafe_b64decode` of a string. -/
def urlsafeB64decode {ε : Type} [Interp] (s : Str) : Except (Raised ε) Bytes :=
  if s.all (fun c => c.val < 0x80) then
    match a2bBase64? 0 0 0 (s.map urlsafeTranslate) with
    | some raw => .ok raw
    | none => .error (.builtin .valueError (Interp.errorText "binascii.a2b_base64" s))
  else .error (.builtin .valueError (lit "string argument should contain only ASCII characters"))

end Py
