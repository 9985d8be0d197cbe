/-
`ca2a_runtime.delegation.holder`: the proof that the presenter of a chain
holds the key of the leaf's subject.
-/
import Ca2a.Challenge

namespace Ca2a

open Py

/-- `PROOF_DOMAIN` -/
def proofDomain : Str := lit "ca2a-holder-proof-v1"

/-- The parameters of `proof_body`. -/
structure ProofFields where
  audience : Str
  challenge : Str
  credentialId : Str
  subject : Str
  requestedCapability : Str
  recordId : Str
  sealedPayload : Option Bytes
  callerChannelKey : Option Str
  parentRecordHash : Option Str
  deriving DecidableEq

/-- The parameters a holder proof is built with and verified against, the leaf and the
challenge apart. -/
structure HolderParams where
  audience : Str
  requestedCapability : Str
  recordId : Str
  sealedPayload : Option Bytes := none
  callerChannelKey : Option Str := none
  parentRecordHash : Option Str := none
  deriving DecidableEq

/-- `HolderProof` -/
structure HolderProof where
  challenge : Str
  signature : Str
  deriving DecidableEq

/-- What builder and verifier both put into the body. -/
def HolderParams.fields (p : HolderParams) (leaf : DelegationCredential) (challenge : Str) : ProofFields where
  audience := p.audience
  challenge := challenge
  credentialId := leaf.credentialId
  subject := leaf.subject
  requestedCapability := p.requestedCapability
  recordId := p.recordId
  sealedPayload := p.sealedPayload
  callerChannelKey := p.callerChannelKey
  parentRecordHash := p.parentRecordHash

/-- `HolderProof.from_dict` -/
def HolderProof.fromDict : Json → Result HolderProof
  | .obj d =>
    match Dict.get? d (lit "challenge") with
    | some (.str (c :: challenge)) =>
      match Dict.get? d (lit "signature") with
      | some (.str (s :: signature)) => .ok { challenge := c :: challenge, signature := s :: signature }
      | _ => raise .holderProofInvalid (lit "holder_proof.signature must be a non-empty string")
    | _ => raise .holderProofInvalid (lit "holder_proof.challenge must be a non-empty string")
  | data => raise .holderProofInvalid (lit "holder_proof must be an object") (some (lit "got " ++ data.typeName))

/-- `HolderProof.to_dict` -/
def HolderProof.toDict (proof : HolderProof) : Dict Json :=
  [(lit "challenge", .str proof.challenge), (lit "signature", .str proof.signature)]

section
variable [Crypto]

/-- `payload_sha256`: the digest of the payload, or null. -/
def payloadSha256 (sealedPayload : Option Bytes) : Json := optStr (sealedPayload.map Crypto.sha256Hex)

/-- `proof_body` -/
def proofBody (p : ProofFields) : Json :=
  .obj [(lit "domain", .str proofDomain), (lit "audience", .str p.audience), (lit "challenge", .str p.challenge),
    (lit "credential_id", .str p.credentialId), (lit "subject", .str p.subject),
    (lit "requested_capability", .str p.requestedCapability), (lit "record_id", .str p.recordId),
    (lit "payload_sha256", payloadSha256 p.sealedPayload), (lit "caller_channel_key", optStr p.callerChannelKey),
    (lit "parent_record_hash", optStr p.parentRecordHash)]

/-- A proof can be signed when the texts it covers can be encoded. -/
theorem canonical_proofBody_iff {p : ProofFields} :
    Canonical (proofBody p) ↔ Clean p.audience ∧ Clean p.challenge ∧ Clean p.credentialId ∧ Clean p.subject ∧
      Clean p.requestedCapability ∧ Clean p.recordId ∧ (∀ s ∈ p.callerChannelKey, Clean s) ∧
      ∀ s ∈ p.parentRecordHash, Clean s := by
  have hpayload : ∀ s ∈ p.sealedPayload.map Crypto.sha256Hex, Clean s := by
    intro s hs
    obtain ⟨b, _, rfl⟩ := Option.mem_map.mp hs
    exact clean_hex _
  have hdomain : Clean proofDomain := clean_lit _
  simp only [proofBody, canonical_obj, List.forall_mem_cons, clean_lit, canonical_str, canonical_optStr, payloadSha256,
    eq_true hpayload, hdomain, true_and, implies_true, List.not_mem_nil, false_implies, and_true]

variable [Interp]

/-- `build_holder_proof` -/
def buildHolderProof (privateKey : Crypto.EdKey) (leaf : DelegationCredential) (challenge : Str) (p : HolderParams) :
    Result HolderProof := do
  let expected := hex (Crypto.edPublic privateKey)
  if expected ≠ leaf.subject then
    raise .holderProofInvalid (lit "signing key does not match the leaf credential subject")
      (some (lit "subject=" ++ leaf.subject ++ lit " key=" ++ expected))
  else
    let msg ← canonicalize (proofBody (p.fields leaf challenge))
    .ok { challenge, signature := hex (Crypto.edSign privateKey msg) }

/-- `verify_holder_proof`, at the time `now`. -/
def verifyHolderProof (proof : HolderProof) (leaf : DelegationCredential) (challengeSecret : Bytes) (p : HolderParams)
    (now : Int) : Result Unit := do
  catchClass .attestationFailed (verifyChallenge challengeSecret proof.challenge now) fun exc =>
    raise .holderProofInvalid (lit "holder proof challenge is not usable: " ++ exc.message) exc.detail
  catchBuiltin signatureErrors (edCheck leaf.subject proof.signature (proofBody (p.fields leaf proof.challenge))) fun _ =>
    raise .holderProofInvalid (lit "holder proof signature failed to verify against the leaf subject")
      (some (lit "the presenter does not hold the delegated key"))

/-- **What a holder proof establishes.** -/
theorem verifyHolderProof_ok_iff {proof : HolderProof} {leaf : DelegationCredential} {secret : Bytes}
    {p : HolderParams} {now : Int} :
    verifyHolderProof proof leaf secret p now = .ok () ↔
      verifyChallenge secret proof.challenge now = .ok () ∧
      SignedBy leaf.subject proof.signature (proofBody (p.fields leaf proof.challenge)) := by
  rw [verifyHolderProof, bind_unit_ok_iff, catchClass_ok_iff (by simp), catchBuiltin_ok_iff (by simp), edCheck_ok_iff]

end

end Ca2a
