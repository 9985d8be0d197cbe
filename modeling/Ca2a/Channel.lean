/-
`ca2a_runtime.channel.sealed`: a payload sealed to an attested channel key.
-/
import Ca2a.Crypto

namespace Ca2a

open Py

variable [Crypto]

/-- `private.exchange(X25519PublicKey.from_public_bytes(pub))`, raising. -/
def exchangeKey (privateKey : Crypto.XKey) (pub : Bytes) : Result Bytes :=
  match Crypto.exchange privateKey pub with
  | .ok shared => .ok shared
  | .error t => .error (.builtin .valueError t)

theorem exchangeKey_ok_iff {privateKey : Crypto.XKey} {pub shared : Bytes} :
    exchangeKey privateKey pub = .ok shared ↔ Crypto.exchange privateKey pub = .ok shared := by
  unfold exchangeKey
  split <;> simp_all

theorem exchangeKey_spec {exc : Exc → Prop} (h : ∀ t, exc (.builtin .valueError t)) (privateKey : Crypto.XKey)
    (pub : Bytes) : Spec (exchangeKey privateKey pub) (fun _ => True) exc := by
  unfold exchangeKey
  split
  · exact trivial
  · exact h _

/-- The octets of an ASCII literal, `b"…"`. -/
def asciiBytes (s : String) : Bytes := s.toList.map fun c => UInt8.ofNat c.toNat

/-- `_derive_key` -/
def deriveKey (shared ephPub peerPub : Bytes) : Bytes :=
  Crypto.hkdf none (asciiBytes "ca2a/sealed-channel/v1") (ephPub ++ peerPub ++ shared)

/-- What `except (InvalidTag, ValueError)` catches. -/
def sealErrors (k : ExcKind) : Bool := k.isValueError || k = .invalidTag

/-- `SealedChannel(peer_public_key).seal(payload, aad=aad)`, with the ephemeral key and the nonce
it draws. -/
def sealTo [Interp] (peerPublicKey : Str) (ephemeral : Crypto.XKey) (nonce payload aad : Bytes) : Result Bytes :=
  catchBuiltin ExcKind.isValueError
    (do
      let peerPub ← fromHex peerPublicKey
      let shared ← exchangeKey ephemeral peerPub
      let key := deriveKey shared (Crypto.xPublic ephemeral) peerPub
      .ok ([1] ++ Crypto.xPublic ephemeral ++ nonce ++ Crypto.aeadEncrypt key nonce payload aad))
    fun t => raise .sealedChannelError (lit "invalid peer public key") (some t)

/-- `open_sealed` -/
def openSealed (blob : Bytes) (privateKey : Crypto.XKey) (aad : Bytes := []) : Result Bytes :=
  if blob.length < 45 ∨ blob.head? ≠ some 1 then
    raise .sealedChannelError (lit "malformed or unsupported sealed payload")
  else
    let ephPub := (blob.drop 1).take 32
    let nonce := (blob.drop 33).take 12
    let ct := blob.drop 45
    catchBuiltin sealErrors
      (do
        let shared ← exchangeKey privateKey ephPub
        let key := deriveKey shared ephPub (Crypto.xPublic privateKey)
        match Crypto.aeadDecrypt key nonce ct aad with
        | .ok payload => .ok payload
        | .error t => .error (.builtin .invalidTag t))
      fun t => raise .sealedChannelError (lit "sealed payload failed to open") (some t)

end Ca2a
