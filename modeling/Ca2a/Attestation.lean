/-
`ca2a_runtime.attestation`: appraising a channel offer, and the caller's
proof that it holds the offered channel key.

The hardware verifier is injected by the deployment, so it is a parameter:
a function of the report and the expected nonce that returns a measurement
or raises.
-/
import Ca2a.Challenge
import Ca2a.Channel
import Ca2a.Holder

namespace Ca2a

open Py

/-- `ROLE_CALLEE` -/
def roleCallee : Str := lit "callee"

/-- `ROLE_CALLER` -/
def roleCaller : Str := lit "caller"

/-- `SOFTWARE_ONLY` -/
def softwareOnly : Str := lit "software-only"

/-- `CALLER_OFFER_VERSION` -/
def callerOfferVersion : Str := lit "ca2a-caller-offer-v2"

/-- `AttestationReport` -/
structure AttestationReport where
  platform : Str
  measurement : Str
  publicKey : Str
  nonce : Str
  rawEvidence : Option Bytes := none
  quoteSignature : Option Bytes := none
  attestationKeyPem : Option Bytes := none
  attestationKeyChainPem : Option Bytes := none
  role : Str := roleCallee
  deriving DecidableEq

/-- `ChannelOffer` -/
structure ChannelOffer where
  channelPublicKey : Str
  report : AttestationReport
  deriving DecidableEq

/-- The assurance an appraisal establishes. -/
inductive Assurance
  | hardware
  | none
  deriving DecidableEq, Repr

def Assurance.text : Assurance → Str
  | .hardware => lit "hardware"
  | .none => lit "none"

/-- `VerifiedPeer` -/
structure VerifiedPeer where
  publicKey : Str
  assurance : Assurance
  measurement : Str

/-- `Verifier` -/
abbrev Verifier := AttestationReport → Str → Result Str

/-- `CallerPossession` -/
structure CallerPossession where
  version : Str
  mac : Str
  deriving DecidableEq

/-- `CallerPossession.from_dict` -/
def CallerPossession.fromDict : Json → Result CallerPossession
  | .obj d =>
    match Dict.get? d (lit "version") with
    | some (.str (v :: version)) =>
      match Dict.get? d (lit "mac") with
      | some (.str (m :: mac)) => .ok { version := v :: version, mac := m :: mac }
      | _ => raise .attestationFailed (lit "caller_possession.mac must be a non-empty string")
    | _ => raise .attestationFailed (lit "caller_possession.version must be a non-empty string")
  | data => raise .attestationFailed (lit "caller_possession must be an object") (some (lit "got " ++ data.typeName))

/-- `CallerPossession.to_dict` -/
def CallerPossession.toDict (possession : CallerPossession) : Dict Json :=
  [(lit "version", .str possession.version), (lit "mac", .str possession.mac)]

/-! ## Offers -/

/-- `BaseProvider.attest`: what the platform answers for a key, a nonce and a role. -/
abbrev Provider := (publicKey nonce role : Str) → Result AttestationReport

/-- `SOFTWARE_MEASUREMENT` -/
def softwareMeasurement : Str := lit "software-only-no-hardware-guarantee"

/-- `SoftwareProvider.attest` -/
def softwareProvider : Provider := fun publicKey nonce role =>
  .ok { platform := softwareOnly, measurement := softwareMeasurement, publicKey, nonce, role }

section
variable [Interp]

/-- `attest_channel` -/
def attestChannel (provider : Provider) (publicKey nonce role : Str) : Result ChannelOffer := do
  let report ← provider publicKey nonce role
  if report.role ≠ role then
    raise .attestationFailed (lit "the provider attested a different offer role than was requested")
      (some (lit "requested " ++ Py.repr role ++ lit ", report says " ++ Py.repr report.role))
  else .ok { channelPublicKey := publicKey, report }

/-- `offer_channel`, with the key it draws. -/
def offerChannel [Crypto] (provider : Provider) (privateKey : Crypto.XKey) (nonce role : Str) : Result ChannelOffer :=
  attestChannel provider (hex (Crypto.xPublic privateKey)) nonce role

/-- `verify_offer` -/
def verifyOffer (offer : ChannelOffer) (expectedNonce : Str) (verifier : Option Verifier) (requireHardware : Bool)
    (role : Str) : Result VerifiedPeer :=
  let report := offer.report
  if report.role ≠ role then
    raise .attestationFailed
      (lit "channel offer was minted for the " ++ Py.repr report.role ++ lit " role, expected " ++ Py.repr role)
      (some (lit "a handshake-endpoint offer cannot be presented as a caller offer; a caller offer must be minted " ++
        lit "for the caller's own call (" ++ callerOfferVersion ++ lit "), and a pre-v2 caller offer carries no role"))
  else if report.publicKey ≠ offer.channelPublicKey then
    raise .attestationFailed (lit "attestation report does not bind the offered channel key")
  else if report.nonce ≠ expectedNonce then
    raise .attestationFailed (lit "attestation report nonce does not match the expected nonce")
      (some (lit "stale or replayed channel offer"))
  else if report.platform = softwareOnly then
    if requireHardware then
      raise .attestationFailed (lit "peer hardware attestation is required; software-only offer refused")
    else
      .ok { publicKey := offer.channelPublicKey, assurance := .none, measurement := report.measurement }
  else
    match verifier with
    | none =>
      raise .attestationFailed (lit "a " ++ Py.repr report.platform ++ lit " report requires a hardware verifier")
        (some (lit "refusing to trust a hardware attestation report without verification"))
    | some verify => do
      let measurement ← verify report expectedNonce
      .ok { publicKey := offer.channelPublicKey, assurance := .hardware, measurement }

variable [Crypto]

/-- `appraise_caller`, at the time `now`. -/
def appraiseCaller (offer : ChannelOffer) (challengeSecret : Bytes) (verifier : Option Verifier) (now : Int) :
    Result VerifiedPeer := do
  verifyChallenge challengeSecret offer.report.nonce now
  verifyOffer offer offer.report.nonce verifier false roleCaller

end

/-- `seal_to_peer`, with the key and the nonce it draws. -/
def sealToPeer [Interp] [Crypto] (peer : VerifiedPeer) (ephemeral : Crypto.XKey) (nonce payload : Bytes) : Result Bytes :=
  sealTo peer.publicKey ephemeral nonce payload []

/-! ## Proof of possession -/

section
variable [Crypto]

/-- `caller_possession_transcript` -/
def callerPossessionTranscript (challenge calleeChannelKey callerChannelKey credentialId subject requestedCapability
    recordId : Str) (sealedPayload : Option Bytes) (parentRecordHash holderProofSignature : Option Str) : Dict Json :=
  [(lit "version", .str callerOfferVersion), (lit "challenge", .str challenge),
    (lit "callee_channel_key", .str calleeChannelKey), (lit "caller_channel_key", .str callerChannelKey),
    (lit "credential_id", .str credentialId), (lit "subject", .str subject),
    (lit "requested_capability", .str requestedCapability), (lit "record_id", .str recordId),
    (lit "payload_sha256", payloadSha256 sealedPayload), (lit "parent_record_hash", optStr parentRecordHash),
    (lit "holder_proof_signature", optStr holderProofSignature)]

/-- The transcript can be encoded when the texts it is made of can. -/
theorem canonical_transcript_iff {challenge callee caller credentialId subject capability recordId : Str}
    {payload : Option Bytes} {parent signature : Option Str} :
    Canonical (.obj (callerPossessionTranscript challenge callee caller credentialId subject capability recordId payload
      parent signature)) ↔
      Clean challenge ∧ Clean callee ∧ Clean caller ∧ Clean credentialId ∧ Clean subject ∧ Clean capability ∧
        Clean recordId ∧ (∀ s ∈ parent, Clean s) ∧ ∀ s ∈ signature, Clean s := by
  have hp : ∀ s ∈ payload.map Crypto.sha256Hex, Clean s := by
    intro s hs
    obtain ⟨b, _, rfl⟩ := Option.mem_map.mp hs
    exact clean_hex _
  simp only [canonical_obj, callerPossessionTranscript, payloadSha256, List.mem_cons, List.not_mem_nil, or_false,
    forall_eq_or_imp, forall_eq, canonical_str, canonical_optStr, clean_lit, true_and, callerOfferVersion]
  tauto

variable [Interp]

/-- The key of `_possession_mac`, from X25519 between the two channel keys. -/
def possessionKey (privateKey : Crypto.XKey) (peerPublicKey callerChannelKey calleeChannelKey : Str) : Result Bytes := do
  let ikm ← catchBuiltin ExcKind.isValueError
    (do
      let peerPub ← fromHex peerPublicKey
      let shared ← exchangeKey privateKey peerPub
      let caller ← fromHex callerChannelKey
      let callee ← fromHex calleeChannelKey
      .ok (caller ++ callee ++ shared))
    fun t => raise .attestationFailed (lit "caller proof of possession could not be keyed") (some t)
  .ok (Crypto.hkdf none (asciiBytes "ca2a/caller-possession/v2/key") ikm)

/-- `_possession_mac` -/
def possessionMac (privateKey : Crypto.XKey) (peerPublicKey callerChannelKey calleeChannelKey : Str)
    (transcript : Dict Json) : Result Str := do
  let key ← possessionKey privateKey peerPublicKey callerChannelKey calleeChannelKey
  let msg ← canonicalize (.obj transcript)
  .ok (hex (Crypto.hmac key (asciiBytes "ca2a/caller-possession/v2/statement" ++ [0] ++ msg)))

/-- `prove_caller_possession` -/
def proveCallerPossession (callerPrivateKey : Crypto.XKey) (calleeChannelKey : Str) (transcript : Dict Json) :
    Result CallerPossession :=
  let callerChannelKey := hex (Crypto.xPublic callerPrivateKey)
  if (transcript.get? (lit "caller_channel_key")).bind Json.str? ≠ some callerChannelKey then
    raise .attestationFailed (lit "possession transcript names a different caller channel key")
  else if (transcript.get? (lit "callee_channel_key")).bind Json.str? ≠ some calleeChannelKey then
    raise .attestationFailed (lit "possession transcript names a different callee channel key")
  else do
    let mac ← possessionMac callerPrivateKey calleeChannelKey callerChannelKey calleeChannelKey transcript
    .ok { version := callerOfferVersion, mac }

/-- `verify_caller_possession` -/
def verifyCallerPossession (possession : Option CallerPossession) (calleePrivateKey : Crypto.XKey)
    (transcript : Dict Json) : Result Unit :=
  match possession with
  | none =>
    raise .attestationFailed (lit "caller offer carries no proof of possession of its channel key")
      (some (callerOfferVersion ++ lit " requires caller_possession with every caller_offer; an older caller must " ++
        lit "be upgraded"))
  | some possession =>
    let calleeChannelKey := hex (Crypto.xPublic calleePrivateKey)
    if possession.version ≠ callerOfferVersion then
      raise .attestationFailed (lit "caller proof of possession has an unsupported version")
        (some (lit "got " ++ Py.repr possession.version ++ lit ", expected " ++ Py.repr callerOfferVersion))
    else if (transcript.get? (lit "callee_channel_key")).bind Json.str? ≠ some calleeChannelKey then
      raise .attestationFailed (lit "possession transcript names a different callee channel key")
    else do
      let callerChannelKey := ((transcript.get? (lit "caller_channel_key")).getD .null).text
      let expected ← possessionMac calleePrivateKey callerChannelKey callerChannelKey calleeChannelKey transcript
      let mac ← utf8 possession.mac
      let expectedMac ← utf8 expected
      if mac ≠ expectedMac then
        raise .attestationFailed (lit "caller proof of possession did not verify")
          (some (lit "the presenter does not hold the attested caller channel key, or the proof was made for a " ++
            lit "different request"))
      else .ok ()

end

end Ca2a
