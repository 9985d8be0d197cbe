/-
`ca2a_runtime.transport.wire` and `_b64url`: the JSON forms of the
handshake and of the answers.

A channel offer is read from any JSON value. What is subscripted need not be
a dictionary, so `in`, `[]` and `.get` keep the exceptions they raise on the
other types; `parseChannelOffer` catches these.
-/
import Ca2a.Bodies
import Ca2a.Peer

namespace Ca2a

open Py

variable [Interp]

/-! ## base64url -/

/-- The value of a digit of the URL-safe alphabet. -/
def b64Val? (c : CodePoint) : Option Nat :=
  if 0x41 ≤ c.val ∧ c.val ≤ 0x5A then some (c.val - 0x41)
  else if 0x61 ≤ c.val ∧ c.val ≤ 0x7A then some (c.val - 0x61 + 26)
  else if 0x30 ≤ c.val ∧ c.val ≤ 0x39 then some (c.val - 0x30 + 52)
  else if c = cp '-' then some 62
  else if c = cp '_' then some 63
  else none

/-- The octets of a list of digits; the bits left over at the end are dropped. One digit more than
a multiple of four is refused. -/
def b64Octets? : List Nat → Option Bytes
  | [] => some []
  | [_] => none
  | [a, b] => some [UInt8.ofNat (a * 4 + b / 16)]
  | [a, b, c] => some [UInt8.ofNat (a * 4 + b / 16), UInt8.ofNat (b % 16 * 16 + c / 4)]
  | a :: b :: c :: d :: rest =>
    (b64Octets? rest).map fun (bs : Bytes) =>
      UInt8.ofNat (a * 4 + b / 16) :: UInt8.ofNat (b % 16 * 16 + c / 4) :: UInt8.ofNat (c % 4 * 64 + d) :: bs

/-- `b64url_decode` -/
def b64urlDecode (field : Str) (value : Json) : Result Bytes :=
  match value.str?.bind fun (s : Str) => if s = [] then none else s.mapM b64Val? with
  | none =>
    raise .transportError (field ++ lit " is not valid base64url")
      (some (lit "expected a non-empty base64url string, got " ++ value.typeName))
  | some digits =>
    match b64Octets? digits with
    | some raw => .ok raw
    | none =>
      raise .transportError (field ++ lit " is not valid base64url")
        (some (Interp.errorText "base64.urlsafe_b64decode" value.text))

omit [Interp] in
/-- The digit of a value below 64. -/
def b64Char (n : Nat) : CodePoint :=
  (lit "ABCDEFGHIJKLMNOPQRSTUVWXYZabcdefghijklmnopqrstuvwxyz0123456789-_").getD n (cp 'A')

omit [Interp] in
/-- The digits of the octets, three at a time. -/
def b64Digits : Bytes → List Nat
  | [] => []
  | [a] => [a.toNat / 4, a.toNat % 4 * 16]
  | [a, b] => [a.toNat / 4, a.toNat % 4 * 16 + b.toNat / 16, b.toNat % 16 * 4]
  | a :: b :: c :: rest =>
    a.toNat / 4 :: (a.toNat % 4 * 16 + b.toNat / 16) :: (b.toNat % 16 * 4 + c.toNat / 64) :: c.toNat % 64 :: b64Digits rest

omit [Interp] in
/-- `b64url_encode`: the digits without the padding, which the source strips. -/
def b64urlEncode (value : Bytes) : Str := (b64Digits value).map b64Char

/-! ## Operations on a value of any type -/

/-- `key in value` -/
def containsKey (key : Str) : Json → Result Bool
  | .obj d => .ok (Dict.has d key)
  | .arr xs => .ok (xs.any fun x => x.str? = some key)
  | .str s => .ok (s.tails.any fun t => key.isPrefixOf t)
  | value => .error (.builtin .typeError (Interp.errorText "in" value.typeName))

/-- `value[key]` -/
def subscript (value : Json) (key : Str) : Result Json :=
  match value with
  | .obj d =>
    match Dict.get? d key with
    | some v => .ok v
    | none => .error (.builtin .keyError (Py.repr key))
  | _ => .error (.builtin .typeError (Interp.errorText "[]" value.typeName))

/-- `value.get(key, default)` -/
def getDefault (value : Json) (key : Str) (default : Json) : Result Json :=
  match value with
  | .obj d => .ok ((Dict.get? d key).getD default)
  | _ =>
    .error (.builtin .attributeError (lit "'" ++ value.typeName ++ lit "' object has no attribute 'get'"))

/-! ## Channel offers -/

/-- `ROLES` -/
def roles : Finset Str := {roleCallee, roleCaller}

/-- `{field: b64url_decode(field, att[field]) … if field in att}`, at one field. -/
def evidenceField (att : Json) (field : Str) : Result (Option Bytes) := do
  let present ← containsKey field att
  if present then do
    let value ← subscript att field
    let raw ← b64urlDecode field value
    .ok (some raw)
  else .ok none

/-- The role of an offer. A list or a dictionary has no hash, so the set of roles cannot be asked. -/
def roleField (role : Json) : Result Str :=
  match role with
  | .str r => if r ∈ roles then .ok r else unknown
  | .arr _ | .obj _ => .error (.builtin .typeError (Interp.errorText "hash" role.typeName))
  | _ => unknown
where
  unknown : Result Str :=
    raise .transportError (lit "malformed channel offer") (some (lit "unknown offer role " ++ role.repr))

omit [Interp] in
/-- The `attestation` of an offer. The role is left out of a callee's, absent evidence of any. -/
def attestationItems (report : AttestationReport) : Dict Json :=
  [(lit "platform", .str report.platform), (lit "measurement", .str report.measurement),
    (lit "public_key", .str report.publicKey), (lit "nonce", .str report.nonce)] ++
    optField (lit "role") (if report.role = roleCallee then none else some (.str report.role)) ++
    evidence "raw_evidence" report.rawEvidence ++ evidence "quote_signature" report.quoteSignature ++
    evidence "attestation_key_pem" report.attestationKeyPem ++
    evidence "attestation_key_chain_pem" report.attestationKeyChainPem
where
  evidence (field : String) (value : Option Bytes) : Dict Json :=
    optField (lit field) (value.map fun b => .str (b64urlEncode b))

omit [Interp] in
/-- `serialize_channel_offer` -/
def serializeChannelOffer (offer : ChannelOffer) (challenge : Option Str := none) : Dict Json :=
  [(lit "channel_public_key", .str offer.channelPublicKey), (lit "attestation", .obj (attestationItems offer.report))] ++
    optField (lit "challenge") (challenge.map .str)

/-- What `except (KeyError, TypeError, AttributeError)` catches. -/
def offerErrors (k : ExcKind) : Bool := k = .keyError || k = .typeError || k = .attributeError

/-- `parse_channel_offer` -/
def parseChannelOffer (data : Json) : Result ChannelOffer :=
  match data with
  | .obj _ =>
    catchBuiltin offerErrors
      (do
        let publicKey ← subscript data (lit "channel_public_key")
        let att ← subscript data (lit "attestation")
        let rawEvidence ← evidenceField att (lit "raw_evidence")
        let quoteSignature ← evidenceField att (lit "quote_signature")
        let attestationKeyPem ← evidenceField att (lit "attestation_key_pem")
        let attestationKeyChainPem ← evidenceField att (lit "attestation_key_chain_pem")
        let role ← getDefault att (lit "role") (.str roleCallee)
        let role ← roleField role
        let platform ← subscript att (lit "platform")
        let measurement ← subscript att (lit "measurement")
        let reportKey ← subscript att (lit "public_key")
        let nonce ← subscript att (lit "nonce")
        .ok
          { channelPublicKey := publicKey.text
            report :=
              { platform := platform.text
                measurement := measurement.text
                publicKey := reportKey.text
                nonce := nonce.text
                rawEvidence, quoteSignature, attestationKeyPem, attestationKeyChainPem, role } })
      fun t => raise .transportError (lit "malformed channel offer") (some t)
  | _ =>
    raise .transportError (lit "malformed channel offer") (some (lit "expected an object, got " ++ data.typeName))

omit [Interp] in
/-- `parse_challenge` -/
def parseChallenge (data : Dict Json) : Result (Option Str) :=
  match Dict.get? data (lit "challenge") with
  | none => .ok none
  | some (.str (c :: challenge)) => .ok (some (c :: challenge))
  | some value =>
    raise .transportError (lit "challenge must be a non-empty string when present")
      (some (lit "got " ++ value.typeName))

/-! ## Answers -/

/-- The items of a record's body. -/
def recordItems (record : DelegationRecord) : Dict Json :=
  match record.body with
  | .obj d => d
  | _ => []

/-- `_record_to_dict` -/
def recordToDict [Crypto] (record : DelegationRecord) : Result JsonDict := do
  let hash ← record.recordHash
  .ok ⟨Dict.set (recordItems record) (lit "record_hash") (.str hash), record.wf_body.set _ (Json.wf_str hash)⟩

/-- `serialize_peer_result` -/
def serializePeerResult [Crypto] (result : PeerResult) : Result JsonDict := do
  let record ← recordToDict result.record
  .ok
    { items :=
        [(lit "accepted", .bool true), (lit "effective_scope", strArr (sortedStrs result.effectiveScope)),
          (lit "granted_capability", .str result.grantedCapability),
          (lit "caller_attestation", .str result.callerAttestation.text), (lit "record", .obj record.items)]
      wf := by simpa [Dict.keys] using Json.wf_obj.mp record.wf }

omit [Interp] in
/-- `serialize_error` -/
def serializeError (err : CA2AError) : JsonDict where
  items := [(lit "error", .obj [(lit "code", .str err.cls.code), (lit "message", .str err.message),
    (lit "detail", optStr err.detail), (lit "http_status", .int err.cls.httpStatus)])]
  wf := by simp [Dict.keys]

end Ca2a
