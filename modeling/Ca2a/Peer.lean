/-
`ca2a_runtime.peer`: what a callee does with a parsed request before it acts.

`handlePeerRequest` records the steps it starts and the steps that return
(`Py.Traced`), since their order is the property the source claims for it:
the payload is opened after every check. Each clock reading of a run is a
field of `Readings`.
-/
import Ca2a.Attestation
import Ca2a.Chain
import Ca2a.Provenance
import Ca2a.Py.Traced

namespace Ca2a

open Py

/-- `REQUIRE_NONE` -/
def requireNone : Str := lit "none"

/-- `REQUIRE_ANY` -/
def requireAny : Str := lit "any"

/-- `REQUIRE_HARDWARE` -/
def requireHardware : Str := lit "hardware"

/-- `REQUIREMENT_VALUES` -/
def requirementValues : Finset Str := {requireNone, requireAny, requireHardware}

/-- `Policy.intersect` -/
abbrev Policy := Finset Str → Result (Finset Str)

/-- `LocalPolicy.intersect` -/
def localPolicy (allow : Finset Str) : Policy := fun delegated => .ok (delegated ∩ allow)

/-- The policy returns a subset of what it is given. -/
def Policy.Narrowing (policy : Policy) : Prop := ∀ scope effective, policy scope = .ok effective → effective ⊆ scope

theorem localPolicy_narrowing (allow : Finset Str) : Policy.Narrowing (localPolicy allow) := by
  rintro scope _ ⟨⟩
  exact Finset.inter_subset_left

/-- `PeerRequest` -/
structure PeerRequest where
  chain : List DelegationCredential
  requestedCapability : Str
  recordId : Str
  sealedPayload : Option Bytes := none
  parentRecordHash : Option Str := none
  callerOffer : Option ChannelOffer := none
  holderProof : Option HolderProof := none
  callerPossession : Option CallerPossession := none
  deriving DecidableEq

/-- `PeerDecision` -/
structure PeerDecision where
  effectiveScope : Finset Str
  grantedCapability : Str
  record : DelegationRecord

/-- `PeerResult` -/
structure PeerResult where
  effectiveScope : Finset Str
  grantedCapability : Str
  record : DelegationRecord
  payload : Option Bytes
  callerAttestation : CallerAttestation
  revocation : RevocationStatus

/-- The callee's configuration: the keyword arguments of `handle_peer_request`. -/
structure PeerConfig [Interp] [Crypto] where
  policy : Policy
  enclavePrivateKey : Option Crypto.XKey := none
  maxDepth : Int := 8
  challengeSecret : Option Bytes := none
  requireCallerAttestation : Str := requireNone
  callerVerifier : Option Verifier := none
  audience : Option Str := none
  requireHolderProof : Bool := true
  trustedRootIssuers : Finset Str := ∅
  revocations : Option RevocationSnapshot := none
  maxRevocationStaleness : Option Int := none

/-- What `int(time.time())` gives each time a run reads the clock. -/
structure Readings where
  chain : Int
  holder : Int
  appraisal : Int

/-- The steps of `handle_peer_request`. -/
inductive PeerStep
  | verifyChain
  | verifyCallerHoldsLeaf
  | intersect
  | appraiseCallerRuntime
  | decideCapability
  | openSealed
  deriving DecidableEq, Repr

section
variable [Interp]

/-- `decide_capability`, for the leaf of a verified chain. -/
def decideCapability (leaf : DelegationCredential) (requestedCapability : Str) (effective : Finset Str) (recordId : Str)
    (parentRecordHash : Option Str) (callerAttestation : CallerAttestation) : Result PeerDecision :=
  if requestedCapability ∉ effective then
    let reason := lit "capability " ++ Py.repr requestedCapability ++ lit " is not in the effective scope"
    .error (.app
      { cls := .scopeNotPermitted
        message := reason
        detail := some (lit "effective=" ++ reprList (sortedStrs effective))
        record := some (denialRecordFor leaf recordId parentRecordHash requestedCapability effective reason
          callerAttestation) })
  else
    .ok
      { effectiveScope := effective
        grantedCapability := requestedCapability
        record := recordFor leaf recordId parentRecordHash callerAttestation }

/-- The `refuse` of `appraise_caller_runtime`: an `AttestationFailed` with a denial record. -/
def refuse {α : Type} (request : PeerRequest) (leaf : DelegationCredential) (effective : Finset Str) (reason : Str)
    (outcome : CallerAttestation) (detail : Option Str := none) : Result α :=
  .error (.app
    { cls := .attestationFailed
      message := reason
      detail := detail
      record := some (denialRecordFor leaf request.recordId request.parentRecordHash request.requestedCapability effective
        reason outcome) })

variable [Crypto]

/-- The transcript the caller's proof of possession is checked against. -/
def requestTranscript (request : PeerRequest) (leaf : DelegationCredential) (offer : ChannelOffer)
    (calleePrivateKey : Crypto.XKey) : Dict Json :=
  callerPossessionTranscript offer.report.nonce (hex (Crypto.xPublic calleePrivateKey)) offer.report.publicKey
    leaf.credentialId leaf.subject request.requestedCapability request.recordId request.sealedPayload
    request.parentRecordHash (request.holderProof.map (·.signature))

/-- What the appraisal of a present offer establishes, the requirement apart. -/
def appraiseOffer (request : PeerRequest) (leaf : DelegationCredential) (effective : Finset Str) (config : PeerConfig)
    (offer : ChannelOffer) (now : Int) : Result VerifiedPeer :=
  match config.challengeSecret with
  | none =>
    refuse request leaf effective (lit "the caller offered an attestation but this callee issues no challenges") .failed
      (some (lit "no challenge secret is configured, so no offer can be appraised"))
  | some secret => do
    let peer ← catchClass .attestationFailed (appraiseCaller offer secret config.callerVerifier now) fun exc =>
      refuse request leaf effective (lit "the caller's attestation did not appraise: " ++ exc.message) .failed exc.detail
    match config.enclavePrivateKey with
    | none =>
      refuse request leaf effective
        (lit "the caller offered an attestation but this callee has no channel key to check its proof of possession " ++
          lit "against") .failed
    | some key => do
      catchClass .attestationFailed
        (verifyCallerPossession request.callerPossession key (requestTranscript request leaf offer key)) fun exc =>
          refuse request leaf effective (lit "the caller's proof of possession did not verify: " ++ exc.message) .failed
            exc.detail
      .ok peer

/-- `appraise_caller_runtime`, for the leaf of a verified chain and at the time `now`. -/
def appraiseCallerRuntime (request : PeerRequest) (leaf : DelegationCredential) (effective : Finset Str)
    (config : PeerConfig) (now : Int) : Result CallerAttestation :=
  let requirement := config.requireCallerAttestation
  if requirement ∉ requirementValues then
    raise .configError (lit "require_caller_attestation must be one of " ++ reprList (sortedStrs requirementValues) ++
      lit ", got " ++ Py.repr requirement)
  else
    match request.callerOffer with
    | none =>
      if request.callerPossession ≠ none then
        refuse request leaf effective (lit "a caller proof of possession was sent without a caller offer") .failed
      else if requirement = requireNone then .ok .notOffered
      else
        refuse request leaf effective (lit "the callee requires caller attestation and the caller offered none")
          .notOffered (some (lit "require_caller_attestation=" ++ Py.repr requirement))
    | some offer => do
      let peer ← appraiseOffer request leaf effective config offer now
      let outcome := if peer.assurance = .hardware then .hardware else .softwareOnly
      if requirement = requireHardware ∧ outcome ≠ .hardware then
        refuse request leaf effective (lit "the callee requires a hardware-attested caller") outcome
          (some (lit "the caller appraised at assurance " ++ Py.repr peer.assurance.text))
      else .ok outcome

/-- What `verify_caller_holds_leaf` checks the proof against. -/
def holderParams (request : PeerRequest) (audience : Str) : HolderParams where
  audience := audience
  requestedCapability := request.requestedCapability
  recordId := request.recordId
  sealedPayload := request.sealedPayload
  callerChannelKey := request.callerOffer.map (·.channelPublicKey)
  parentRecordHash := request.parentRecordHash

/-- `verify_caller_holds_leaf`, for the leaf of a verified chain and at the time `now`. -/
def verifyCallerHoldsLeaf (request : PeerRequest) (leaf : DelegationCredential) (config : PeerConfig) (now : Int) :
    Result Unit :=
  match request.holderProof with
  | none =>
    raise .holderProofInvalid (lit "no holder proof was presented with the delegation chain")
      (some (lit "a chain alone does not establish that the caller is its subject"))
  | some proof =>
    match config.audience, config.challengeSecret with
    | some audience, some secret => verifyHolderProof proof leaf secret (holderParams request audience) now
    | _, _ =>
      raise .holderProofInvalid (lit "holder proof required but this callee has no challenge context")
        (some (lit "the callee must name itself as the audience and hold the secret behind the challenge it issued"))

/-- `chain[-1]` -/
def chainLeaf (chain : List DelegationCredential) : Result DelegationCredential :=
  match chain.getLast? with
  | some leaf => .ok leaf
  | none => .error (.builtin .indexError (lit "list index out of range"))

/-- The holder check, when the callee requires it. -/
def holderStep (request : PeerRequest) (leaf : DelegationCredential) (config : PeerConfig) (now : Int) :
    Traced PeerStep Exc Unit :=
  if config.requireHolderProof then .step .verifyCallerHoldsLeaf (verifyCallerHoldsLeaf request leaf config now)
  else pure ()

/-- The payload, opened with the enclave key when there is one. -/
def openPayload (config : PeerConfig) : Option Bytes → Traced PeerStep Exc (Option Bytes)
  | none => pure none
  | some blob =>
    match config.enclavePrivateKey with
    | none => .lift (raise .sealedChannelError (lit "a sealed payload was sent but no enclave key is available"))
    | some key => do
      let payload ← .step .openSealed (openSealed blob key)
      pure (some payload)

/-- `handle_peer_request` -/
def handlePeerRequest (request : PeerRequest) (config : PeerConfig) (clock : Readings) :
    Traced PeerStep Exc PeerResult := do
  let revocation ← .step .verifyChain (verifyChain request.chain config.maxDepth config.trustedRootIssuers none
    clock.chain config.revocations config.maxRevocationStaleness)
  let leaf ← .lift (chainLeaf request.chain)
  holderStep request leaf config clock.holder
  let effective ← .step .intersect (config.policy leaf.scope)
  let callerAttestation ← .step .appraiseCallerRuntime (appraiseCallerRuntime request leaf effective config
    clock.appraisal)
  let decision ← .step .decideCapability (decideCapability leaf request.requestedCapability effective request.recordId
    request.parentRecordHash callerAttestation)
  let payload ← openPayload config request.sealedPayload
  pure
    { effectiveScope := decision.effectiveScope
      grantedCapability := decision.grantedCapability
      record := decision.record
      payload := payload
      callerAttestation := callerAttestation
      revocation := revocation }

end

end Ca2a
