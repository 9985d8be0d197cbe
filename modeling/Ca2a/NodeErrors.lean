/-
When `PeerNode.handle` raises nothing but `CA2AError`s.

Texts of the request are encoded in three places where nothing has looked at
them yet: the random part of a challenge, the transcript of a proof of
possession, and its MAC. An unpaired surrogate there raises
`UnicodeEncodeError`, which no caller catches. A negative bound on the age of
revocation data is refused with a `ValueError` on every call, and what the
revocation source raises escapes as it is. `Contains` says that a request
reaches none of these, and this is exactly when the call is contained
(`handle_contained_iff`).
-/
import Ca2a.Contained
import Ca2a.PeerFacts
import Ca2a.SealedChannel

namespace Ca2a

open Py

section
variable [Interp] [Crypto]

/-- The policy and the verifier raise nothing but the runtime's own errors. -/
def PeerNode.Conforming (node : PeerNode) : Prop :=
  (∀ scope, Contained (node.policy scope)) ∧
    ∀ verify ∈ node.callerVerifier, ∀ report nonce, Contained (verify report nonce)

omit [Interp] [Crypto] in
/-- The texts of a request that nothing checks before they are encoded. -/
def PeerRequest.TextsEncode (request : PeerRequest) : Prop :=
  Clean request.requestedCapability ∧ Clean request.recordId ∧ (∀ h ∈ request.parentRecordHash, Clean h) ∧
    ∀ proof ∈ request.holderProof, Clean proof.signature

namespace PeerNode

/-- The chain of the request verifies. -/
def ChainVerified (node : PeerNode) (revocations : Option RevocationSnapshot) (request : PeerRequest) (clock : Readings) :
    Prop :=
  ∃ status, verifyChain request.chain node.maxDepth node.trustedRootIssuers none clock.chain revocations
    node.maxRevocationStaleness = .ok status

/-- The request gets as far as the appraisal of the caller's runtime. -/
def AppraisalReached (node : PeerNode) (revocations : Option RevocationSnapshot) (request : PeerRequest)
    (clock : Readings) : Prop :=
  node.ChainVerified revocations request clock ∧ ∃ leaf, request.chain.getLast? = some leaf ∧
    (node.requireHolderProof = true →
      verifyCallerHoldsLeaf request leaf (node.config revocations) clock.holder = .ok ()) ∧
    ∃ effective, node.policy leaf.scope = .ok effective

/-- The key of a proof of possession for the offer. -/
def offerKey (node : PeerNode) (offer : ChannelOffer) : Result Bytes :=
  possessionKey node.privateKey offer.report.publicKey offer.report.publicKey node.channelPublicKey

/-- Nothing the appraisal of the offer encodes holds an unpaired surrogate: neither the challenge it
answers, nor, once the offer appraises, the proof of possession and its transcript. -/
@[mk_iff offerEncodes_iff]
structure OfferEncodes (node : PeerNode) (request : PeerRequest) (offer : ChannelOffer) (now : Int) : Prop where
  nonce : ¬ DirtyChallenge offer.report.nonce
  possession : (∃ peer, appraiseCaller offer node.challengeSecret node.callerVerifier now = .ok peer) →
    ∀ possession ∈ request.callerPossession, possession.version = callerOfferVersion →
      (∃ key, node.offerKey offer = .ok key) → request.TextsEncode ∧ Clean possession.mac

/-- Nothing the request makes the node encode holds an unpaired surrogate, and the node's bound on
staleness is not negative. -/
structure Encodable (node : PeerNode) (revocations : Option RevocationSnapshot) (request : PeerRequest)
    (clock : Readings) : Prop where
  staleness : ∀ s ∈ node.maxRevocationStaleness, 0 ≤ s
  challenge : node.ChainVerified revocations request clock → node.requireHolderProof = true →
    ∀ proof ∈ request.holderProof, ¬ DirtyChallenge proof.challenge
  offer : node.AppraisalReached revocations request clock → ∀ offer ∈ request.callerOffer,
    node.OfferEncodes request offer clock.appraisal

/-- The revocation source raises no exception that is not the runtime's own, and what it answers lets the request be handled. -/
structure Contains (node : PeerNode) (request : PeerRequest) (clock : Readings) : Prop where
  source : Contained node.revocations
  encodable : ∀ revocations, node.revocations = .ok revocations → node.Encodable revocations request clock

end PeerNode

/-! ## The steps of the pipeline -/

omit [Interp] in
theorem noFloat_proofBody (p : ProofFields) : (proofBody p).NoFloat := by
  simp [proofBody, payloadSha256]

theorem contained_verifyHolderProof_iff {proof : HolderProof} {leaf : DelegationCredential} {secret : Bytes}
    {p : HolderParams} {now : Int} :
    Contained (verifyHolderProof proof leaf secret p now) ↔ ¬ DirtyChallenge proof.challenge := by
  rw [verifyHolderProof, contained_bind_iff, contained_catchClass_iff fun _ => contained_raise _ _ _,
    contained_verifyChallenge_iff]
  refine and_iff_left_of_imp fun _ _ _ => ?_
  exact (contained_catchBuiltin_iff fun _ => contained_raise _ _ _).mpr
    ((edCheck_spec (noFloat_proofBody _)).mono (fun _ _ => trivial) fun _ h => .inr h)

theorem contained_verifyCallerHoldsLeaf_iff {node : PeerNode} {revocations : Option RevocationSnapshot}
    {request : PeerRequest} {leaf : DelegationCredential} {now : Int} :
    Contained (verifyCallerHoldsLeaf request leaf (node.config revocations) now) ↔
      ∀ proof ∈ request.holderProof, ¬ DirtyChallenge proof.challenge := by
  unfold verifyCallerHoldsLeaf
  cases request.holderProof with
  | none => simp
  | some proof => simp [PeerNode.config, contained_verifyHolderProof_iff]

omit [Crypto] in
theorem contained_verifyOffer {verifier : Option Verifier}
    (hv : ∀ verify ∈ verifier, ∀ report nonce, Contained (verify report nonce)) (offer : ChannelOffer) (nonce : Str)
    (requireHardware : Bool) (role : Str) : Contained (verifyOffer offer nonce verifier requireHardware role) := by
  unfold verifyOffer
  refine contained_ite (fun _ => contained_raise _ _ _) fun _ => contained_ite (fun _ => contained_raise _ _ _) fun _ =>
    contained_ite (fun _ => contained_raise _ _ _) fun _ => contained_ite (fun _ => ?_) fun _ => ?_
  · exact contained_ite (fun _ => contained_raise _ _ _) fun _ => contained_ok _
  · split
    · exact contained_raise _ _ _
    · exact contained_bind_iff.mpr ⟨hv _ rfl _ _, fun _ _ => contained_ok _⟩

theorem contained_appraiseCaller_iff {verifier : Option Verifier}
    (hv : ∀ verify ∈ verifier, ∀ report nonce, Contained (verify report nonce)) {offer : ChannelOffer} {secret : Bytes}
    {now : Int} : Contained (appraiseCaller offer secret verifier now) ↔ ¬ DirtyChallenge offer.report.nonce := by
  rw [appraiseCaller, contained_bind_iff, contained_verifyChallenge_iff]
  exact and_iff_left_of_imp fun _ _ _ => contained_verifyOffer hv _ _ _ _

theorem contained_possessionKey (privateKey : Crypto.XKey) (peer caller callee : Str) :
    Contained (possessionKey privateKey peer caller callee) := by
  have hcaught : ∀ t, Catches ExcKind.isValueError (.builtin .valueError t) := fun t => .inr ⟨_, t, rfl, rfl⟩
  refine contained_bind_iff.mpr ⟨?_, fun _ _ => contained_ok _⟩
  refine (contained_catchBuiltin_iff fun _ => contained_raise _ _ _).mpr ?_
  refine (fromHex_spec hcaught peer).bind fun pub _ => (exchangeKey_spec hcaught privateKey pub).bind fun shared _ => ?_
  exact (fromHex_spec hcaught caller).bind fun _ _ => (fromHex_spec hcaught callee).bind fun _ _ => trivial

/-- The MAC of a proof of possession is contained when it cannot be keyed or its transcript can be
encoded. -/
theorem contained_possessionMac_iff {privateKey : Crypto.XKey} {peer caller callee : Str} {transcript : Dict Json} :
    Contained (possessionMac privateKey peer caller callee transcript) ↔
      ((∃ key, possessionKey privateKey peer caller callee = .ok key) → Canonical (.obj transcript)) := by
  rw [possessionMac, contained_bind_iff, and_iff_right (contained_possessionKey _ _ _ _)]
  simp only [contained_bind_iff, contained_canonicalize_iff, contained_ok, implies_true, and_true, forall_exists_index]

/-- A key that can be agreed on is written in hex. -/
theorem clean_of_possessionKey {privateKey : Crypto.XKey} {peer caller callee : Str} {key : Bytes}
    (h : possessionKey privateKey peer caller callee = .ok key) : Clean peer := by
  rw [possessionKey, bind_ok_iff] at h
  obtain ⟨ikm, hikm, _⟩ := h
  rw [catchBuiltin_ok_iff (by simp), bind_ok_iff] at hikm
  obtain ⟨pub, hpub, _⟩ := hikm
  exact fromHex?_clean (fromHex_ok_iff.mp hpub)

/-- The check of a proof of possession is contained when the request's texts can be encoded, where it gets that far. -/
theorem contained_verifyCallerPossession_iff {privateKey : Crypto.XKey} {request : PeerRequest}
    {leaf : DelegationCredential} {offer : ChannelOffer} (hid : Clean leaf.credentialId) (hsubject : Clean leaf.subject)
    (hnonce : Clean offer.report.nonce) :
    Contained (verifyCallerPossession request.callerPossession privateKey
      (requestTranscript request leaf offer privateKey)) ↔
      ∀ possession ∈ request.callerPossession, possession.version = callerOfferVersion →
        (∃ key, possessionKey privateKey offer.report.publicKey offer.report.publicKey (hex (Crypto.xPublic privateKey)) =
          .ok key) → request.TextsEncode ∧ Clean possession.mac := by
  cases request.callerPossession with
  | none => simp [verifyCallerPossession]
  | some possession =>
    simp only [Option.mem_some_iff, forall_eq']
    by_cases hversion : possession.version = callerOfferVersion
    swap
    · simp [verifyCallerPossession, hversion]
    have htexts : ∀ key, possessionKey privateKey offer.report.publicKey offer.report.publicKey
        (hex (Crypto.xPublic privateKey)) = .ok key →
        (Canonical (.obj (requestTranscript request leaf offer privateKey)) ↔ request.TextsEncode) := by
      intro key hkey
      have hpub := clean_of_possessionKey hkey
      rw [requestTranscript, canonical_transcript_iff, PeerRequest.TextsEncode]
      simp [hpub, hid, hsubject, hnonce]
    rw [verifyCallerPossession_eq hversion (requestTranscript_callee _ _ _ _) (requestTranscript_caller _ _ _ _),
      contained_bind_iff, contained_possessionMac_iff]
    simp only [contained_bind_iff, contained_utf8_iff]
    constructor
    · rintro ⟨hcanon, hrest⟩ _ ⟨key, hkey⟩
      have htr := hcanon ⟨key, hkey⟩
      refine ⟨(htexts key hkey).mp htr, ?_⟩
      obtain ⟨msg, hmsg⟩ := (exists_canonicalize_iff (ε := CA2AError)).mpr htr
      exact (hrest _ (by rw [possessionMac, show possessionKey _ _ _ _ = .ok key from hkey, ok_bind, hmsg, ok_bind])).1
    · intro h
      refine ⟨fun hkeyed => ?_, fun expected hm => ?_⟩
      · obtain ⟨key, hkey⟩ := hkeyed
        exact (htexts key hkey).mpr (h hversion ⟨key, hkey⟩).1
      · obtain ⟨key, hkey, _⟩ := bind_ok_iff.mp hm
        refine ⟨(h hversion ⟨key, hkey⟩).2, fun _ _ => ⟨clean_of_possessionMac hm, fun _ _ => ?_⟩⟩
        exact contained_ite (fun _ => contained_raise _ _ _) fun _ => contained_ok _

omit [Interp] [Crypto] in
theorem contained_refuse {α : Type} (request : PeerRequest) (leaf : DelegationCredential) (effective : Finset Str)
    (reason : Str) (outcome : CallerAttestation) (detail : Option Str) :
    Contained (refuse request leaf effective reason outcome detail : Result α) := trivial

/-- The appraisal of an offer encodes its nonce, then the proof of possession. -/
theorem contained_appraiseOffer_iff {node : PeerNode} (hc : node.Conforming) {revocations : Option RevocationSnapshot}
    {request : PeerRequest} {leaf : DelegationCredential} {effective : Finset Str} {offer : ChannelOffer} {now : Int}
    (hid : Clean leaf.credentialId) (hsubject : Clean leaf.subject) :
    Contained (appraiseOffer request leaf effective (node.config revocations) offer now) ↔
      node.OfferEncodes request offer now := by
  unfold appraiseOffer
  simp only [PeerNode.config, PeerNode.offerEncodes_iff]
  rw [contained_bind_iff, contained_catchClass_iff fun _ => contained_refuse _ _ _ _ _ _,
    contained_appraiseCaller_iff hc.2]
  refine and_congr_right fun _ => ?_
  rw [forall_exists_index]
  refine forall_congr' fun peer => ?_
  rw [catchClass_ok_iff (by simp)]
  refine forall_congr' fun hpeer => ?_
  have hnonce := clean_of_verifyChallenge (appraiseCaller_ok_iff.mp hpeer).1
  rw [contained_bind_iff, contained_catchClass_iff fun _ => contained_refuse _ _ _ _ _ _,
    contained_verifyCallerPossession_iff hid hsubject hnonce]
  exact and_iff_left fun _ _ => contained_ok _

theorem contained_appraiseCallerRuntime_iff {node : PeerNode} (hc : node.Conforming)
    {revocations : Option RevocationSnapshot} {request : PeerRequest} {leaf : DelegationCredential}
    {effective : Finset Str} {now : Int} (hid : Clean leaf.credentialId) (hsubject : Clean leaf.subject) :
    Contained (appraiseCallerRuntime request leaf effective (node.config revocations) now) ↔
      ∀ offer ∈ request.callerOffer, node.OfferEncodes request offer now := by
  have hreq : (node.config revocations).requireCallerAttestation ∈ requirementValues := node.requirement
  unfold appraiseCallerRuntime
  dsimp only
  rw [if_neg (not_not.mpr hreq)]
  cases request.callerOffer with
  | none =>
    simp only [Option.mem_def, reduceCtorEq, false_implies, implies_true, iff_true]
    refine contained_ite (fun _ => contained_refuse _ _ _ _ _ _) fun _ => ?_
    exact contained_ite (fun _ => contained_ok _) fun _ => contained_refuse _ _ _ _ _ _
  | some offer =>
    simp only [Option.mem_some_iff, forall_eq']
    rw [contained_bind_iff, contained_appraiseOffer_iff hc hid hsubject]
    refine and_iff_left_of_imp fun _ peer _ => ?_
    exact contained_ite (fun _ => contained_refuse _ _ _ _ _ _) fun _ => contained_ok _

omit [Crypto] in
theorem contained_decideCapability (leaf : DelegationCredential) (capability : Str) (effective : Finset Str)
    (recordId : Str) (parent : Option Str) (attestation : CallerAttestation) :
    Contained (decideCapability leaf capability effective recordId parent attestation) := by
  unfold decideCapability
  exact contained_ite (fun _ => contained_app _) fun _ => contained_ok _

omit [Interp] in
theorem contained_openSealed (blob : Bytes) (privateKey : Crypto.XKey) (aad : Bytes) :
    Contained (openSealed blob privateKey aad) := by
  refine (openSealed_spec blob aad privateKey).mono (fun _ h => h) ?_
  intro e he
  cases e with
  | builtin k t => exact he
  | app e => exact trivial

theorem contained_openPayload (node : PeerNode) (revocations : Option RevocationSnapshot) (sealed : Option Bytes) :
    Contained (openPayload (node.config revocations) sealed).result := by
  cases sealed with
  | none => exact contained_ok _
  | some blob =>
    simp only [openPayload, PeerNode.config, Traced.bind_result, Traced.step_result, contained_bind_iff]
    exact ⟨contained_openSealed _ _ _, fun _ _ => contained_ok _⟩

/-! ## The whole call -/

theorem PeerNode.ChainVerified.exists_leaf {node : PeerNode} {revocations : Option RevocationSnapshot}
    {request : PeerRequest} {clock : Readings} (h : node.ChainVerified revocations request clock) :
    ∃ leaf, request.chain.getLast? = some leaf :=
  ⟨_, List.getLast?_eq_getLast_of_ne_nil (exists_verifyChain_iff.mp h).2.2.nonempty⟩

theorem contained_holderStep_iff {node : PeerNode} {revocations : Option RevocationSnapshot} {request : PeerRequest}
    {leaf : DelegationCredential} {now : Int} :
    Contained (holderStep request leaf (node.config revocations) now).result ↔
      (node.requireHolderProof = true → ∀ proof ∈ request.holderProof, ¬ DirtyChallenge proof.challenge) := by
  unfold holderStep
  have hcfg : (node.config revocations).requireHolderProof = node.requireHolderProof := rfl
  rw [hcfg]
  split
  · rename_i h
    rw [Traced.step_result, contained_verifyCallerHoldsLeaf_iff]
    exact ⟨fun hp _ => hp, fun hp => hp h⟩
  · rename_i h
    exact iff_of_true (contained_ok _) fun hp => absurd hp h

/-- **When the pipeline is contained.** -/
theorem contained_handlePeerRequest_iff {node : PeerNode} (hc : node.Conforming)
    {revocations : Option RevocationSnapshot} {request : PeerRequest} {clock : Readings} :
    Contained (handlePeerRequest request (node.config revocations) clock).result ↔
      node.Encodable revocations request clock := by
  simp only [handlePeerRequest, Traced.bind_result, Traced.step_result, Traced.lift_result, contained_bind_iff,
    contained_holderStep_iff, chainLeaf_ok_iff]
  constructor
  · rintro ⟨hchain, hrest⟩
    refine ⟨(contained_verifyChain_iff.mp hchain).2, ?_, ?_⟩
    · intro hv
      obtain ⟨leaf, hl⟩ := hv.exists_leaf
      obtain ⟨status, hst⟩ := hv
      exact ((hrest status hst).2 leaf hl).1
    · rintro ⟨hv, leaf, hl, hheld, effective, hpol⟩
      obtain ⟨status, hst⟩ := hv
      obtain ⟨hid, hsubject⟩ := clean_leaf hst hl
      have h := ((hrest status hst).2 leaf hl).2 () (holderStep_ok_iff.mpr hheld)
      exact (contained_appraiseCallerRuntime_iff hc hid hsubject).mp (h.2 effective hpol).1
  · intro h
    refine ⟨contained_verifyChain_iff.mpr ⟨by simp, h.staleness⟩, fun status hst => ?_⟩
    have hv : node.ChainVerified revocations request clock := ⟨status, hst⟩
    constructor
    · obtain ⟨leaf, hl⟩ := hv.exists_leaf
      rw [chainLeaf_ok_iff.mpr hl]
      exact contained_ok leaf
    · intro leaf hl
      obtain ⟨hid, hsubject⟩ := clean_leaf hst hl
      refine ⟨h.challenge hv, fun _ hheld => ⟨hc.1 _, fun effective hpol => ⟨?_, fun _ _ =>
        ⟨contained_decideCapability _ _ _ _ _ _, fun _ _ => ⟨contained_openPayload _ _ _, fun _ _ => contained_ok _⟩⟩⟩⟩⟩
      refine (contained_appraiseCallerRuntime_iff hc hid hsubject).mpr (h.offer ⟨hv, leaf, hl, ?_, effective, hpol⟩)
      exact holderStep_ok_iff.mp hheld

theorem contained_serve_iff {node : PeerNode} (hc : node.Conforming) {request : PeerRequest} {clock : Readings} :
    Contained (node.serve request clock) ↔ node.Contains request clock := by
  rw [PeerNode.serve, contained_bind_iff]
  refine ⟨fun h => ⟨h.1, fun revocations hr => (contained_handlePeerRequest_iff hc).mp (h.2 revocations hr)⟩, fun h => ?_⟩
  exact ⟨h.source, fun revocations hr => (contained_handlePeerRequest_iff hc).mpr (h.encodable revocations hr)⟩

theorem contained_handle_iff {node : PeerNode} (hc : node.Conforming) {message : Dict Json} {clock : Readings} :
    Contained (node.handle message clock) ↔
      ∀ request, parsePeerRequest message = .ok (some request) → node.Contains request clock := by
  rw [PeerNode.handle, contained_bind_iff, and_iff_right (contained_parsePeerRequest _)]
  constructor
  · intro h request hr
    exact (contained_serve_iff hc).mp (h _ hr)
  · intro h request hr
    cases request with
    | none => exact contained_raise _ _ _
    | some request => exact (contained_serve_iff hc).mpr (h request hr)

theorem verifyChallenge_spec_iff {secret : Bytes} {challenge : Str} {now : Int} :
    Spec (verifyChallenge secret challenge now) (fun _ => True) (Exc.isClass .attestationFailed) ↔
      ¬ DirtyChallenge challenge := by
  refine ⟨fun h => contained_verifyChallenge_iff.mp (h.mono (fun _ _ => trivial) ?_), fun h => verifyChallenge_spec h _ _⟩
  intro e he
  cases e with
  | builtin k t => exact he.elim
  | app e => exact trivial

/-- **What escapes from `verify_challenge` and from `handle`**, exactly. -/
theorem handle_contained_iff :
    (∀ (secret : Bytes) (challenge : Str) (now : Int),
      Spec (verifyChallenge secret challenge now) (fun _ => True) (Exc.isClass .attestationFailed) ↔
        ¬ DirtyChallenge challenge) ∧
    ∀ (node : PeerNode), node.Conforming → ∀ (message : JsonDict) (clock : Readings),
      Contained (node.handle message.items clock) ↔
        ∀ request, parsePeerRequest message.items = .ok (some request) → node.Contains request clock :=
  ⟨fun _ _ _ => verifyChallenge_spec_iff, fun _ hc _ _ => contained_handle_iff hc⟩

end

/-! ## A challenge with an unpaired surrogate -/

/-- A message that presents the grant, with this holder proof. -/
def grantMessage (proof : Json) : Dict Json :=
  [(lit "metadata", .obj
    [(keyDelegationChain, .arr [.obj
      [(lit "credential_id", .str wireGrant.credentialId), (lit "issuer", .str wireGrant.issuer),
        (lit "subject", .str wireGrant.subject), (lit "scope", .arr [.str (lit "read")]), (lit "depth", .int 0),
        (lit "parent_id", .null), (lit "signature", .str wireGrant.signature)]]),
      (keyRequestedCapability, .str (lit "read")), (keyRecordId, .str (lit "r1")), (keyParentRecordHash, .null),
      (keyHolderProof, proof)])]

def unpairedSurrogate : CodePoint := ⟨0xD800, by decide⟩

/-- A challenge whose random part is an unpaired surrogate. -/
def surrogateChallenge : Str := lit "v1.0." ++ [unpairedSurrogate] ++ lit "." ++ List.replicate 64 (cp '0')

def surrogateProof : HolderProof where
  challenge := surrogateChallenge
  signature := lit "00"

/-- What the message parses to. -/
def grantRequest (proof : Option HolderProof) : PeerRequest where
  chain := [wireGrant]
  requestedCapability := lit "read"
  recordId := lit "r1"
  holderProof := proof

def surrogateMessage : JsonDict where
  items := grantMessage (.obj [(lit "challenge", .str surrogateChallenge), (lit "signature", .str (lit "00"))])
  wf := by
    simp [grantMessage, Dict.keys, keyDelegationChain, keyRequestedCapability, keyRecordId, keyParentRecordHash,
      keyHolderProof]

def prooflessMessage : JsonDict where
  items := grantMessage .null
  wf := by
    simp [grantMessage, Dict.keys, keyDelegationChain, keyRequestedCapability, keyRecordId, keyParentRecordHash,
      keyHolderProof]

/-- A node that trusts the issuer of the grant, its other settings at their defaults. -/
def wireNode : @PeerNode Interp.ascii Crypto.wire :=
  let _ := Interp.ascii
  let _ := Crypto.wire
  { policy := localPolicy {lit "read"}
    privateKey := (3 : UInt8)
    challengeSecret := []
    trustedRootIssuers := {readGrant.issuer}
    requirement := requireNone_mem
    appraisable := appraisable_requireNone }

theorem wireNode_conforming : @PeerNode.Conforming Interp.ascii Crypto.wire wireNode :=
  ⟨fun _ => contained_ok _, fun _ h => by cases h⟩

/-- The parser's answer, compared by evaluation. -/
theorem eq_of_parsed {x : Result (Option PeerRequest)} {request : PeerRequest}
    (h : (match x with | .ok (some r) => decide (r = request) | _ => false) = true) : x = .ok (some request) := by
  split at h
  · rw [of_decide_eq_true h]
  · cases h

theorem parse_surrogateMessage : @parsePeerRequest Interp.ascii surrogateMessage.items =
    .ok (some (grantRequest (some surrogateProof))) :=
  eq_of_parsed (by decide +kernel)

theorem parse_prooflessMessage : @parsePeerRequest Interp.ascii prooflessMessage.items = .ok (some (grantRequest none)) :=
  eq_of_parsed (by decide +kernel)

theorem dirty_surrogateChallenge : @DirtyChallenge Interp.ascii surrogateChallenge :=
  ⟨lit "0", [unpairedSurrogate], List.replicate 64 (cp '0'), by decide +kernel, by decide +kernel, by decide +kernel,
    by decide +kernel⟩

theorem grantRequest_verified (proof : Option HolderProof) :
    @PeerNode.ChainVerified Interp.ascii Crypto.wire wireNode none (grantRequest proof) toyReadings := by
  let _ := Interp.ascii
  let _ := Crypto.wire
  refine exists_verifyChain_iff.mpr ⟨by simp, by simp [wireNode], ?_⟩
  exact ChainAccepted.single wireGrant_signed rfl rfl ⟨by simp [wireGrant, readGrant], by simp [wireGrant, readGrant]⟩

theorem not_contains_surrogate : ¬ @PeerNode.Contains Interp.ascii Crypto.wire wireNode
    (grantRequest (some surrogateProof)) toyReadings := by
  let _ := Interp.ascii
  let _ := Crypto.wire
  intro h
  exact (h.encodable none rfl).challenge (grantRequest_verified _) rfl surrogateProof rfl dirty_surrogateChallenge

/-- The node with a revocation source that cannot be reached. -/
def sourcelessNode : @PeerNode Interp.ascii Crypto.wire :=
  let _ := Interp.ascii
  let _ := Crypto.wire
  { wireNode with revocationSource := some (.error (.builtin .osError (lit "unreachable"))) }

theorem sourcelessNode_conforming : @PeerNode.Conforming Interp.ascii Crypto.wire sourcelessNode :=
  ⟨fun _ => contained_ok _, fun _ h => by cases h⟩

/-- The surrogate escapes from `verify_challenge`, and from the node it is sent to; what a revocation source raises escapes
whatever the request. -/
theorem handle_surrogateMessage :
    let _ := Interp.ascii
    let _ := Crypto.wire
    wireNode.Conforming ∧ ¬ Contained (wireNode.handle surrogateMessage.items toyReadings) ∧
      ¬ Spec (verifyChallenge [] surrogateChallenge 0) (fun _ => True) (Exc.isClass .attestationFailed) ∧
      sourcelessNode.Conforming ∧ ¬ Contained (sourcelessNode.handle prooflessMessage.items toyReadings) := by
  intro _ _
  rw [contained_handle_iff wireNode_conforming, verifyChallenge_spec_iff, not_not,
    contained_handle_iff sourcelessNode_conforming]
  exact ⟨wireNode_conforming, fun h => not_contains_surrogate (h _ parse_surrogateMessage), dirty_surrogateChallenge,
    sourcelessNode_conforming, fun h => (h _ parse_prooflessMessage).source⟩

theorem contains_proofless : @PeerNode.Contains Interp.ascii Crypto.wire wireNode (grantRequest none) toyReadings := by
  let _ := Interp.ascii
  let _ := Crypto.wire
  exact ⟨contained_ok _, fun _ _ => ⟨by simp [wireNode], by simp [grantRequest], by simp [grantRequest]⟩⟩

theorem handle_prooflessMessage :
    let _ := Interp.ascii
    let _ := Crypto.wire
    wireNode.Conforming ∧ Contained (wireNode.handle prooflessMessage.items toyReadings) := by
  intro _ _
  rw [handle_contained_iff.2 wireNode wireNode_conforming]
  refine ⟨wireNode_conforming, fun request hr => ?_⟩
  obtain rfl := Option.some.inj (Except.ok.inj (parse_prooflessMessage.symm.trans hr))
  exact contains_proofless

end Ca2a
