/-
The primitives of the `cryptography` package, `hashlib` and `hmac`, as
parameters, and the one way the runtime checks an Ed25519 signature.

Nothing is assumed of them here. What a result needs (a signature that
verifies for one message only, an injective digest, a symmetric key
agreement) is a named hypothesis of that result.
-/
import Ca2a.Canonical
import Ca2a.Errors

namespace Ca2a

open Py

class Crypto where
  /-- `Ed25519PrivateKey` -/
  EdKey : Type
  /-- `key.public_key().public_bytes_raw()` -/
  edPublic : EdKey → Bytes
  edSign : EdKey → (msg : Bytes) → Bytes
  /-- The text of the `ValueError` of `Ed25519PublicKey.from_public_bytes`, when it raises. -/
  edKeyError : Bytes → Option Str
  /-- `Ed25519PublicKey.verify`: whether it returns. -/
  edVerify : (pub sig msg : Bytes) → Bool
  sha256 : Bytes → Bytes
  /-- HMAC-SHA256. -/
  hmac : (key msg : Bytes) → Bytes
  /-- `X25519PrivateKey` -/
  XKey : Type
  xPublic : XKey → Bytes
  /-- `key.exchange(X25519PublicKey.from_public_bytes(pub))`, or the text of the `ValueError` for
  a malformed key or a low-order point. -/
  exchange : XKey → (pub : Bytes) → Except Str Bytes
  /-- HKDF-SHA256 with 32 bytes of output. -/
  hkdf : (salt : Option Bytes) → (info ikm : Bytes) → Bytes
  /-- ChaCha20-Poly1305. -/
  aeadEncrypt : (key nonce payload aad : Bytes) → Bytes
  /-- The plaintext, or the text of the `InvalidTag` or `ValueError`. -/
  aeadDecrypt : (key nonce ct aad : Bytes) → Except Str Bytes

namespace Crypto

/-- An ideal signature: it verifies for one message under one key. -/
def IdealSignature [Crypto] : Prop :=
  ∀ pub pub' sig msg msg', edVerify pub sig msg = true → edVerify pub' sig msg' = true → pub = pub' ∧ msg = msg'

/-- A signature verifies under the key it was made with, and is not empty. -/
def SignatureCorrect [Crypto] : Prop :=
  ∀ key msg, edKeyError (edPublic key) = none ∧ edVerify (edPublic key) (edSign key msg) msg = true ∧
    edSign key msg ≠ []

/-- `hashlib.sha256(b).hexdigest()` -/
def sha256Hex [Crypto] (b : Bytes) : Str := hex (sha256 b)

theorem sha256Hex_injective [Crypto] (h : Function.Injective sha256) : Function.Injective sha256Hex :=
  hex_injective.comp h

/-! ## A model of the primitives

Enough to run the protocol: a key is one octet repeated, a signature is the public key and
the message, the digest is the identity, agreement adds the keys octet by octet. It is ideal
where the results ask for it. -/

@[reducible] def toy : Crypto where
  EdKey := UInt8
  edPublic k := List.replicate 32 k
  edSign k msg := List.replicate 32 k ++ msg
  edKeyError b := if b.length = 32 then none else some (lit "An Ed25519 public key is 32 bytes long")
  edVerify pub sig msg := decide (pub.length = 32 ∧ sig = pub ++ msg)
  sha256 b := b
  hmac _ _ := List.replicate 32 0
  XKey := UInt8
  xPublic k := List.replicate 32 k
  exchange k pub := if pub.length = 32 then .ok (pub.map (· + k)) else .error (lit "An X25519 public key is 32 bytes long")
  hkdf _ _ ikm := ikm
  aeadEncrypt _ _ payload _ := payload
  aeadDecrypt _ _ ct _ := .ok ct

theorem toy_idealSignature : @IdealSignature toy := by
  intro pub pub' sig msg msg' h h'
  obtain ⟨hl, rfl⟩ := of_decide_eq_true h
  obtain ⟨hl', heq⟩ := of_decide_eq_true h'
  exact List.append_inj heq (hl.trans hl'.symm)

theorem toy_signatureCorrect : @SignatureCorrect toy := by
  intro key msg
  refine ⟨if_pos List.length_replicate, decide_eq_true ⟨List.length_replicate, rfl⟩, ?_⟩
  exact List.append_ne_nil_of_left_ne_nil (by simp) msg

/-- The primitives of `toy` with signatures of 64 octets, as the wire form has them. -/
@[reducible] def wire : Crypto :=
  { toy with
    edSign := fun (k : UInt8) _ => List.replicate 32 k ++ List.replicate 32 0
    edVerify := fun pub sig _ => decide (pub.length = 32 ∧ sig = pub ++ List.replicate 32 0) }

/-- The primitives of `wire` with derived keys of 32 octets. -/
@[reducible] def agreed : Crypto := { wire with hkdf := fun _ _ _ => List.replicate 32 0 }

end Crypto

/-! ## Signature checks -/

section
variable [Interp] [Crypto]

/-- `Ed25519PublicKey.from_public_bytes(bytes.fromhex(key)).verify(bytes.fromhex(sig), canonicalize(body))` -/
def edCheck (key sig : Str) (body : Json) : Result Unit := do
  let pub ← fromHex key
  match Crypto.edKeyError pub with
  | some t => .error (.builtin .valueError t)
  | none =>
    let s ← fromHex sig
    let msg ← canonicalize body
    if Crypto.edVerify pub s msg then .ok () else .error (.builtin .invalidSignature [])

/-- What `except (InvalidSignature, ValueError)` catches. -/
def signatureErrors (k : ExcKind) : Bool := k.isValueError || k = .invalidSignature

/-- The signature verifies under the key over the canonical form of the body. -/
def SignedBy (key sig : Str) (body : Json) : Prop :=
  ∃ pub s msg, fromHex? key = some pub ∧ Crypto.edKeyError pub = none ∧ fromHex? sig = some s ∧
    canonicalize (ε := CA2AError) body = .ok msg ∧ Crypto.edVerify pub s msg = true

omit [Crypto] in
theorem fromHex_ok_iff {s : Str} {b : Bytes} : fromHex (ε := CA2AError) s = .ok b ↔ fromHex? s = some b := by
  unfold fromHex
  split <;> simp_all

omit [Crypto] in
theorem fromHex_spec {exc : Exc → Prop} (h : ∀ t, exc (.builtin .valueError t)) (s : Str) :
    Spec (fromHex s) (fun _ => True) exc := by
  unfold fromHex
  split
  · exact trivial
  · exact h _

theorem edCheck_ok_iff {key sig : Str} {body : Json} : edCheck key sig body = .ok () ↔ SignedBy key sig body := by
  simp only [edCheck, SignedBy, bind_ok_iff, fromHex_ok_iff]
  constructor
  · rintro ⟨pub, hpub, h⟩
    split at h
    · cases h
    · rename_i hkey
      simp only [bind_ok_iff, fromHex_ok_iff] at h
      obtain ⟨s, hs, msg, hmsg, h⟩ := h
      split at h
      · rename_i hv; exact ⟨pub, s, msg, hpub, hkey, hs, hmsg, hv⟩
      · cases h
  · rintro ⟨pub, s, msg, hpub, hkey, hs, hmsg, hv⟩
    refine ⟨pub, hpub, ?_⟩
    simp only [hkey, bind_ok_iff, fromHex_ok_iff]
    exact ⟨s, hs, msg, hmsg, by simp [hv]⟩

/-- What is signed can be encoded. -/
theorem SignedBy.canonical {key sig : Str} {body : Json} (h : SignedBy key sig body) : Canonical body := by
  obtain ⟨_, _, msg, _, _, _, hmsg, _⟩ := h
  exact exists_canonicalize_iff.mp ⟨msg, hmsg⟩

end

end Ca2a
