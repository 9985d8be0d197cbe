/-
What an accepted peer call establishes.

`handlePeerRequest_ok_iff` says when a run returns, in terms of what each of
its steps returned; the steps' own lemmas say what that means. The order of
the steps is read off the trace (`trace_before_openSealed`).
-/
import Ca2a.HolderFacts
import Ca2a.Peer

namespace Ca2a

open Py

section
variable [Interp]

/-! ## Offers -/

/-- **When an offer appraises**, and as what. -/
theorem verifyOffer_ok_iff {offer : ChannelOffer} {nonce : Str} {verifier : Option Verifier} {role : Str}
    {peer : VerifiedPeer} :
    verifyOffer offer nonce verifier false role = .ok peer ↔
      offer.report.role = role ∧ offer.report.publicKey = offer.channelPublicKey ∧ offer.report.nonce = nonce ∧
      peer.publicKey = offer.channelPublicKey ∧
      if offer.report.platform = softwareOnly then
        peer.assurance = .none ∧ peer.measurement = offer.report.measurement
      else
        peer.assurance = .hardware ∧ ∃ verify, verifier = some verify ∧ verify offer.report nonce = .ok peer.measurement := by
  obtain ⟨key, assurance, measurement⟩ := peer
  by_cases hrole : offer.report.role = role
  swap
  · simp [verifyOffer, hrole]
  by_cases hkey : offer.report.publicKey = offer.channelPublicKey
  swap
  · simp [verifyOffer, hrole, hkey]
  by_cases hnonce : offer.report.nonce = nonce
  swap
  · simp [verifyOffer, hrole, hkey, hnonce]
  simp only [verifyOffer, hrole, hkey, hnonce, ne_eq, not_true_eq_false, if_false, true_and]
  split
  · simp [eq_comm]
  · cases verifier with
    | none => simp
    | some verify =>
      simp only [bind_ok_iff, Except.ok.injEq, VerifiedPeer.mk.injEq, Option.some.injEq, exists_eq_left']
      constructor
      · rintro ⟨m, hm, rfl, rfl, rfl⟩
        exact ⟨rfl, rfl, hm⟩
      · rintro ⟨rfl, rfl, hm⟩
        exact ⟨_, hm, rfl, rfl, rfl⟩

variable [Crypto]

theorem appraiseCaller_ok_iff {offer : ChannelOffer} {secret : Bytes} {verifier : Option Verifier} {now : Int}
    {peer : VerifiedPeer} :
    appraiseCaller offer secret verifier now = .ok peer ↔
      verifyChallenge secret offer.report.nonce now = .ok () ∧
      verifyOffer offer offer.report.nonce verifier false roleCaller = .ok peer := by
  rw [appraiseCaller, bind_unit_ok_iff]

/-! ## Proofs of possession -/

/-- A MAC that is computed is written in hex. -/
theorem clean_of_possessionMac {privateKey : Crypto.XKey} {peer caller callee mac : Str} {transcript : Dict Json}
    (h : possessionMac privateKey peer caller callee transcript = .ok mac) : Clean mac := by
  simp only [possessionMac, bind_ok_iff, Except.ok.injEq] at h
  obtain ⟨_, _, _, _, rfl⟩ := h
  exact clean_hex _

section
variable {exc : Exc → Prop} (hbuiltin : ∀ k t, exc (.builtin k t))
  (hfailed : ∀ message detail, exc (.app { cls := .attestationFailed, message, detail }))
include hbuiltin hfailed

/-- What a proof of possession is keyed with, or an exception of Python, or `AttestationFailed`. -/
theorem possessionKey_raises (privateKey : Crypto.XKey) (peer caller callee : Str) :
    Spec (possessionKey privateKey peer caller callee) (fun _ => True) exc := by
  refine Spec.bind (catchBuiltin_spec (show Spec _ (fun _ => True) _ from ?_) fun t => ?_) fun _ _ => trivial
  · refine Spec.mono (show Spec _ (fun _ => True) exc from ?_) (fun _ h => h) fun _ he => .inl he
    refine (fromHex_spec (hbuiltin _) peer).bind fun pub _ => (exchangeKey_spec (hbuiltin _) privateKey pub).bind fun _ _ => ?_
    exact (fromHex_spec (hbuiltin _) caller).bind fun _ _ => (fromHex_spec (hbuiltin _) callee).bind fun _ _ => trivial
  · exact hfailed _ _

/-- What the check of a proof of possession raises: an exception of Python, or `AttestationFailed`. -/
theorem verifyCallerPossession_raises (possession : Option CallerPossession) (privateKey : Crypto.XKey)
    (transcript : Dict Json) : Spec (verifyCallerPossession possession privateKey transcript) (fun _ => True) exc := by
  cases possession with
  | none => exact hfailed _ _
  | some possession =>
    simp only [verifyCallerPossession]
    split
    · exact hfailed _ _
    split
    · exact hfailed _ _
    have hmac : ∀ caller callee, Spec (possessionMac privateKey caller caller callee transcript) (fun _ => True) exc :=
      fun _ _ => (possessionKey_raises hbuiltin hfailed _ _ _ _).bind fun _ _ =>
        (canonicalize_raises hbuiltin _).bind fun _ _ => trivial
    refine (hmac _ _).bind fun _ _ => (utf8_spec (hbuiltin _) _).bind fun _ _ => (utf8_spec (hbuiltin _) _).bind fun _ _ => ?_
    split
    · exact hfailed _ _
    · trivial

end

section
variable {privateKey : Crypto.XKey} {transcript : Dict Json} {caller : Str}

/-- A proof of the version supported, for the keys the transcript names, is compared with the MAC over the transcript. -/
theorem verifyCallerPossession_eq {possession : CallerPossession} (hversion : possession.version = callerOfferVersion)
    (hcallee : Dict.get? transcript (lit "callee_channel_key") = some (.str (hex (Crypto.xPublic privateKey))))
    (hcaller : Dict.get? transcript (lit "caller_channel_key") = some (.str caller)) :
    verifyCallerPossession (some possession) privateKey transcript = (do
      let expected ← possessionMac privateKey caller caller (hex (Crypto.xPublic privateKey)) transcript
      let mac ← utf8 possession.mac
      let expectedMac ← utf8 expected
      if mac ≠ expectedMac then
        raise .attestationFailed (lit "caller proof of possession did not verify")
          (some (lit "the presenter does not hold the attested caller channel key, or the proof was made for a " ++
            lit "different request"))
      else .ok ()) := by
  simp only [verifyCallerPossession, hversion, hcallee, hcaller, Option.bind_some, Json.str?, ne_eq, not_true_eq_false,
    if_false, Option.getD_some, Json.text]

/-- **A proof of possession verifies when it is the MAC over the transcript.** -/
theorem verifyCallerPossession_ok_iff {possession : Option CallerPossession}
    (hcallee : Dict.get? transcript (lit "callee_channel_key") = some (.str (hex (Crypto.xPublic privateKey))))
    (hcaller : Dict.get? transcript (lit "caller_channel_key") = some (.str caller)) :
    verifyCallerPossession possession privateKey transcript = .ok () ↔
      ∃ mac, possessionMac privateKey caller caller (hex (Crypto.xPublic privateKey)) transcript = .ok mac ∧
        possession = some ⟨callerOfferVersion, mac⟩ := by
  cases possession with
  | none => simp [verifyCallerPossession]
  | some possession =>
    obtain ⟨version, tag⟩ := possession
    by_cases hversion : version = callerOfferVersion
    swap
    · simp [verifyCallerPossession, hversion]
    subst hversion
    rw [verifyCallerPossession_eq rfl hcallee hcaller]
    simp only [bind_ok_iff, utf8_ok_iff, Option.some.injEq, CallerPossession.mk.injEq, true_and]
    constructor
    · intro h
      obtain ⟨expected, hexpected, mac, hmac, octets, hoctets, h⟩ := h
      refine ⟨expected, hexpected, ?_⟩
      by_cases hsame : mac = octets
      · exact utf8?_injective hmac (hsame ▸ hoctets)
      · simp [hsame] at h
    · intro h
      obtain ⟨mac, hmac, rfl⟩ := h
      obtain ⟨octets, hoctets⟩ := utf8?_isSome_iff.mpr (clean_of_possessionMac hmac)
      exact ⟨tag, hmac, octets, hoctets, octets, hoctets, if_neg (by simp)⟩

end

section
variable (request : PeerRequest) (leaf : DelegationCredential) (offer : ChannelOffer) (key : Crypto.XKey)

omit [Interp] in
theorem requestTranscript_callee :
    Dict.get? (requestTranscript request leaf offer key) (lit "callee_channel_key") =
      some (.str (hex (Crypto.xPublic key))) := by
  simp [requestTranscript, callerPossessionTranscript, Dict.get?_cons]

omit [Interp] in
theorem requestTranscript_caller :
    Dict.get? (requestTranscript request leaf offer key) (lit "caller_channel_key") =
      some (.str offer.report.publicKey) := by
  simp [requestTranscript, callerPossessionTranscript, Dict.get?_cons]

end

omit [Interp] [Crypto] in
@[simp] theorem refuse_ne_ok {α : Type} {request : PeerRequest} {leaf : DelegationCredential} {effective : Finset Str}
    {reason : Str} {outcome : CallerAttestation} {detail : Option Str} {a : α} :
    refuse request leaf effective reason outcome detail ≠ .ok a := by
  simp [refuse]

theorem appraiseOffer_ok_iff {request : PeerRequest} {leaf : DelegationCredential} {effective : Finset Str}
    {config : PeerConfig} {offer : ChannelOffer} {now : Int} {peer : VerifiedPeer} :
    appraiseOffer request leaf effective config offer now = .ok peer ↔
      ∃ secret key, config.challengeSecret = some secret ∧ config.enclavePrivateKey = some key ∧
        appraiseCaller offer secret config.callerVerifier now = .ok peer ∧
        verifyCallerPossession request.callerPossession key (requestTranscript request leaf offer key) = .ok () := by
  unfold appraiseOffer
  cases config.challengeSecret with
  | none => simp
  | some secret =>
    cases config.enclavePrivateKey with
    | none => simp [bind_ok_iff]
    | some key =>
      simp only [bind_ok_iff, Option.some.injEq, exists_and_left, exists_eq_left',
        catchClass_ok_iff (fun _ _ => refuse_ne_ok), Except.ok.injEq]
      constructor
      · rintro ⟨_, hp, _, hpos, rfl⟩
        exact ⟨hp, hpos⟩
      · rintro ⟨hp, hpos⟩
        exact ⟨peer, hp, (), hpos, rfl⟩

/-- **What the appraisal of the caller's runtime returns.** -/
theorem appraiseCallerRuntime_ok_iff {request : PeerRequest} {leaf : DelegationCredential} {effective : Finset Str}
    {config : PeerConfig} {now : Int} {att : CallerAttestation} :
    appraiseCallerRuntime request leaf effective config now = .ok att ↔
      config.requireCallerAttestation ∈ requirementValues ∧
      match request.callerOffer with
      | none => request.callerPossession = none ∧ config.requireCallerAttestation = requireNone ∧ att = .notOffered
      | some offer => ∃ peer, appraiseOffer request leaf effective config offer now = .ok peer ∧
          att = (if peer.assurance = .hardware then .hardware else .softwareOnly) ∧
          (config.requireCallerAttestation = requireHardware → att = .hardware) := by
  by_cases hreq : config.requireCallerAttestation ∈ requirementValues
  swap
  · simp [appraiseCallerRuntime, hreq]
  cases hoffer : request.callerOffer with
  | none =>
    by_cases hpos : request.callerPossession = none
    swap
    · simp [appraiseCallerRuntime, hreq, hoffer, hpos]
    by_cases hnone : config.requireCallerAttestation = requireNone
    swap
    · simp [appraiseCallerRuntime, hreq, hoffer, hpos, hnone]
    have hmem : requireNone ∈ requirementValues := hnone ▸ hreq
    simp only [appraiseCallerRuntime, hoffer, hpos, hnone, hmem, not_true_eq_false, if_false, ne_eq, if_true, true_and,
      Except.ok.injEq]
    exact eq_comm
  | some offer =>
    simp only [appraiseCallerRuntime, hreq, hoffer, not_true_eq_false, if_false, bind_ok_iff, true_and]
    refine exists_congr fun peer => and_congr_right fun _ => ?_
    generalize (if peer.assurance = .hardware then CallerAttestation.hardware else .softwareOnly) = outcome
    split
    · rename_i h
      simp only [refuse_ne_ok, false_iff, not_and]
      rintro rfl hh
      exact h.2 (hh h.1)
    · rename_i h
      simp only [Except.ok.injEq]
      constructor
      · rintro rfl
        exact ⟨rfl, fun hh => by_contra fun hne => h ⟨hh, hne⟩⟩
      · rintro ⟨rfl, _⟩
        rfl

/-! ## The pipeline -/

/-- What each step of an accepted run returned. -/
structure Accepted (request : PeerRequest) (config : PeerConfig) (clock : Readings) (leaf : DelegationCredential)
    (res : PeerResult) : Prop where
  leaf_eq : request.chain.getLast? = some leaf
  chain : verifyChain request.chain config.maxDepth config.trustedRootIssuers none clock.chain config.revocations
    config.maxRevocationStaleness = .ok res.revocation
  holder : config.requireHolderProof = true → verifyCallerHoldsLeaf request leaf config clock.holder = .ok ()
  effective : config.policy leaf.scope = .ok res.effectiveScope
  appraisal : appraiseCallerRuntime request leaf res.effectiveScope config clock.appraisal = .ok res.callerAttestation
  granted : res.grantedCapability = request.requestedCapability
  permitted : request.requestedCapability ∈ res.effectiveScope
  record : res.record = recordFor leaf request.recordId request.parentRecordHash res.callerAttestation
  payload : match request.sealedPayload with
    | none => res.payload = none
    | some blob => ∃ key payload, config.enclavePrivateKey = some key ∧ openSealed blob key = .ok payload ∧
        res.payload = some payload

omit [Crypto] in
theorem decideCapability_ok_iff {leaf : DelegationCredential} {capability : Str} {effective : Finset Str} {recordId : Str}
    {parent : Option Str} {att : CallerAttestation} {d : PeerDecision} :
    decideCapability leaf capability effective recordId parent att = .ok d ↔
      capability ∈ effective ∧ d = ⟨effective, capability, recordFor leaf recordId parent att⟩ := by
  unfold decideCapability
  split
  · simp_all
  · rename_i h
    simp only [not_not] at h
    simp only [h, true_and, Except.ok.injEq]
    exact eq_comm

omit [Interp] [Crypto] in
theorem chainLeaf_ok_iff {chain : List DelegationCredential} {leaf : DelegationCredential} :
    chainLeaf chain = .ok leaf ↔ chain.getLast? = some leaf := by
  unfold chainLeaf
  split <;> simp_all

theorem holderStep_ok_iff {request : PeerRequest} {leaf : DelegationCredential} {config : PeerConfig} {now : Int} :
    (holderStep request leaf config now).result = .ok () ↔
      (config.requireHolderProof = true → verifyCallerHoldsLeaf request leaf config now = .ok ()) := by
  unfold holderStep
  split <;> simp_all

theorem openPayload_ok_iff {config : PeerConfig} {sealed payload : Option Bytes} :
    (openPayload config sealed).result = .ok payload ↔
      match sealed with
      | none => payload = none
      | some blob => ∃ key opened, config.enclavePrivateKey = some key ∧ openSealed blob key = .ok opened ∧
          payload = some opened := by
  cases sealed with
  | none =>
    simp only [openPayload, Traced.pure_result, Except.ok.injEq]
    exact eq_comm
  | some blob =>
    cases hk : config.enclavePrivateKey with
    | none => simp [openPayload, hk]
    | some key =>
      simp only [openPayload, hk, Traced.bind_result, Traced.step_result, Traced.pure_result, bind_ok_iff,
        Except.ok.injEq, Option.some.injEq, exists_and_left, exists_eq_left']
      exact exists_congr fun p => and_congr_right fun _ => eq_comm

/-- **When a run returns**, and what. -/
theorem handlePeerRequest_ok_iff {request : PeerRequest} {config : PeerConfig} {clock : Readings} {res : PeerResult} :
    (handlePeerRequest request config clock).result = .ok res ↔ ∃ leaf, Accepted request config clock leaf res := by
  simp only [handlePeerRequest, Traced.bind_result, Traced.step_result, Traced.lift_result, Traced.pure_result,
    bind_ok_iff, chainLeaf_ok_iff, openPayload_ok_iff, decideCapability_ok_iff, Except.ok.injEq]
  constructor
  · rintro ⟨revocation, hchain, leaf, hleaf, ⟨⟩, hholder, effective, heff, att, hatt, decision, ⟨hcap, rfl⟩, payload, hpay,
      rfl⟩
    exact ⟨leaf, hleaf, hchain, holderStep_ok_iff.mp hholder, heff, hatt, rfl, hcap, rfl, hpay⟩
  · rintro ⟨leaf, h⟩
    refine ⟨_, h.chain, leaf, h.leaf_eq, (), holderStep_ok_iff.mpr h.holder, _, h.effective, _, h.appraisal, _,
      ⟨h.permitted, rfl⟩, _, h.payload, ?_⟩
    obtain ⟨effective, granted, record, payload, att, revocation⟩ := res
    simp only [PeerResult.mk.injEq, true_and, and_true]
    exact ⟨h.granted.symm, h.record.symm⟩

/-! ## The order of the steps -/

/-- The record of every check having run and returned, in the order of the source. -/
def checksTrace (requireHolderProof : Bool) : List (Event PeerStep) :=
  [.started .verifyChain, .returned .verifyChain] ++
    (if requireHolderProof then [.started .verifyCallerHoldsLeaf, .returned .verifyCallerHoldsLeaf] else []) ++
    [.started .intersect, .returned .intersect, .started .appraiseCallerRuntime, .returned .appraiseCallerRuntime,
      .started .decideCapability, .returned .decideCapability]

/-- Every check of the run returned. -/
def ChecksPassed (request : PeerRequest) (config : PeerConfig) (clock : Readings) : Prop :=
  ∃ st leaf effective att decision,
    verifyChain request.chain config.maxDepth config.trustedRootIssuers none clock.chain config.revocations
      config.maxRevocationStaleness = .ok st ∧
    request.chain.getLast? = some leaf ∧
    (config.requireHolderProof = true → verifyCallerHoldsLeaf request leaf config clock.holder = .ok ()) ∧
    config.policy leaf.scope = .ok effective ∧
    appraiseCallerRuntime request leaf effective config clock.appraisal = .ok att ∧
    decideCapability leaf request.requestedCapability effective request.recordId request.parentRecordHash att =
      .ok decision

/-- The steps after the holder check, up to the opening of the payload. -/
theorem trace_after_holder {request : PeerRequest} {config : PeerConfig} {clock : Readings} {leaf : DelegationCredential}
    {f : Finset Str → CallerAttestation → PeerDecision → Traced PeerStep Exc PeerResult} {pre post : List (Event PeerStep)}
    (hf : ∀ effective att decision, ∃ t, (f effective att decision).trace = [] ∨
      (f effective att decision).trace = .started .openSealed :: t ∧ .started .openSealed ∉ t)
    (h : (do
      let effective ← Traced.step PeerStep.intersect (config.policy leaf.scope)
      let att ← Traced.step PeerStep.appraiseCallerRuntime (appraiseCallerRuntime request leaf effective config clock.appraisal)
      let decision ← Traced.step PeerStep.decideCapability (decideCapability leaf request.requestedCapability
        effective request.recordId request.parentRecordHash att)
      f effective att decision).trace = pre ++ .started .openSealed :: post) :
    pre = [.started .intersect, .returned .intersect, .started .appraiseCallerRuntime,
        .returned .appraiseCallerRuntime, .started .decideCapability, .returned .decideCapability] ∧
      ∃ effective att decision, config.policy leaf.scope = .ok effective ∧
        appraiseCallerRuntime request leaf effective config clock.appraisal = .ok att ∧
        decideCapability leaf request.requestedCapability effective request.recordId request.parentRecordHash att =
          .ok decision := by
  obtain ⟨effective, pre, heff, rfl, h₁⟩ := Traced.started_of_step_bind (by decide) h
  obtain ⟨att, pre, hatt, rfl, h₂⟩ := Traced.started_of_step_bind (by decide) h₁
  obtain ⟨decision, pre, hdec, rfl, h₃⟩ := Traced.started_of_step_bind (by decide) h₂
  refine ⟨?_, effective, att, decision, heff, hatt, hdec⟩
  obtain ⟨t, ht | ⟨ht, hnot⟩⟩ := hf effective att decision
  · rw [ht] at h₃
    simp at h₃
  · rw [ht] at h₃
    cases pre with
    | nil => rfl
    | cons e pre =>
      simp only [List.cons_append, List.cons.injEq] at h₃
      rw [h₃.2] at hnot
      simp at hnot

/-- The payload is opened at most once, and nothing is recorded before it. -/
theorem openPayload_trace (config : PeerConfig) (sealed : Option Bytes) (f : Option Bytes → PeerResult) :
    ∃ t, (openPayload config sealed >>= fun p => pure (f p)).trace = [] ∨
      (openPayload config sealed >>= fun p => pure (f p)).trace = .started .openSealed :: t ∧
        .started .openSealed ∉ t := by
  cases sealed with
  | none => exact ⟨[], .inl rfl⟩
  | some blob =>
    cases hk : config.enclavePrivateKey with
    | none => exact ⟨[], .inl (by simp [openPayload, hk, raise, Traced.lift_bind])⟩
    | some key =>
      cases ho : openSealed blob key with
      | error e => exact ⟨[], .inr (by simp [openPayload, hk, ho, Traced.step, bind])⟩
      | ok p => exact ⟨[.returned .openSealed], .inr (by simp [openPayload, hk, ho, Traced.step, bind, pure])⟩

/-- **A run that starts to open the payload has run every check before it, and each
returned.** -/
theorem trace_before_openSealed {request : PeerRequest} {config : PeerConfig} {clock : Readings}
    {pre post : List (Event PeerStep)}
    (h : (handlePeerRequest request config clock).trace = pre ++ .started .openSealed :: post) :
    pre = checksTrace config.requireHolderProof ∧ ChecksPassed request config clock := by
  obtain ⟨st, pre, hchain, rfl, h₁⟩ := Traced.started_of_step_bind (by decide) h
  clear h
  rw [Traced.lift_bind] at h₁
  cases hleaf : chainLeaf request.chain with
  | error e => simp [hleaf] at h₁
  | ok leaf =>
    simp only [hleaf] at h₁
    rw [chainLeaf_ok_iff] at hleaf
    cases hreq : config.requireHolderProof with
    | false =>
      simp only [holderStep, hreq, Bool.false_eq_true, if_false, Traced.pure_bind] at h₁
      obtain ⟨rfl, effective, att, decision, heff, hatt, hdec⟩ :=
        trace_after_holder (fun _ _ _ => openPayload_trace _ _ _) h₁
      exact ⟨rfl, st, leaf, effective, att, decision, hchain, hleaf, by simp [hreq], heff, hatt, hdec⟩
    | true =>
      simp only [holderStep, hreq, if_true] at h₁
      obtain ⟨_, pre, hholder, rfl, h₂⟩ := Traced.started_of_step_bind (by decide) h₁
      obtain ⟨rfl, effective, att, decision, heff, hatt, hdec⟩ :=
        trace_after_holder (fun _ _ _ => openPayload_trace _ _ _) h₂
      exact ⟨rfl, st, leaf, effective, att, decision, hchain, hleaf, fun _ => hholder, heff, hatt, hdec⟩

/-! ## What acceptance guarantees -/

/-- What holds of an accepted call, in the terms of the request and the configuration. -/
structure PeerGuarantee (request : PeerRequest) (config : PeerConfig) (clock : Readings) (leaf : DelegationCredential)
    (res : PeerResult) : Prop where
  chain_accepted : ChainAccepted request.chain config.maxDepth config.trustedRootIssuers none clock.chain
    config.revocations config.maxRevocationStaleness
  leaf_eq : request.chain.getLast? = some leaf
  holder : config.requireHolderProof = true → ∃ proof audience secret, request.holderProof = some proof ∧
    config.audience = some audience ∧ config.challengeSecret = some secret ∧
    verifyHolderProof proof leaf secret (holderParams request audience) clock.holder = .ok ()
  requirement : config.requireCallerAttestation = requireNone ∨
    config.requireCallerAttestation = requireAny ∧ res.callerAttestation ∈ [.softwareOnly, .hardware] ∨
    config.requireCallerAttestation = requireHardware ∧ res.callerAttestation = .hardware
  granted : res.grantedCapability = request.requestedCapability
  permitted : ∃ effective, config.policy leaf.scope = .ok effective ∧ res.effectiveScope = effective ∧
    request.requestedCapability ∈ effective
  every_hop : config.policy.Narrowing → ∀ c ∈ request.chain, res.grantedCapability ∈ c.scope
  payload : ∀ blob ∈ request.sealedPayload, ∃ key payload, config.enclavePrivateKey = some key ∧
    openSealed blob key = .ok payload ∧ res.payload = some payload
  record : res.record = recordFor leaf request.recordId request.parentRecordHash res.callerAttestation
  same_attestation : res.record.callerAttestation = res.callerAttestation
  not_failed : res.callerAttestation ≠ .failed
  not_offered : res.callerAttestation = .notOffered ↔ request.callerOffer = none
  hardware : res.callerAttestation = .hardware → ∃ offer secret verify measurement,
    request.callerOffer = some offer ∧ config.challengeSecret = some secret ∧ config.callerVerifier = some verify ∧
    offer.report.role = roleCaller ∧ verify offer.report offer.report.nonce = .ok measurement ∧
    verifyChallenge secret offer.report.nonce clock.appraisal = .ok ()

/-- The attestation an accepted offer is recorded with. -/
theorem appraiseOffer_attestation {request : PeerRequest} {leaf : DelegationCredential} {effective : Finset Str}
    {config : PeerConfig} {offer : ChannelOffer} {now : Int} {peer : VerifiedPeer}
    (h : appraiseOffer request leaf effective config offer now = .ok peer) :
    peer.assurance = .hardware ↔ offer.report.platform ≠ softwareOnly := by
  obtain ⟨_, _, _, _, hpeer, _⟩ := appraiseOffer_ok_iff.mp h
  obtain ⟨_, _, _, _, _, h⟩ := (appraiseCaller_ok_iff.trans (and_congr_right fun _ => verifyOffer_ok_iff)).mp hpeer
  split at h
  · rename_i hs; simp [h.1, hs]
  · rename_i hs; simp [h.1, hs]

theorem verifyCallerHoldsLeaf_ok_iff {request : PeerRequest} {leaf : DelegationCredential} {config : PeerConfig}
    {now : Int} :
    verifyCallerHoldsLeaf request leaf config now = .ok () ↔
      ∃ proof audience secret, request.holderProof = some proof ∧ config.audience = some audience ∧
        config.challengeSecret = some secret ∧
        verifyHolderProof proof leaf secret (holderParams request audience) now = .ok () := by
  unfold verifyCallerHoldsLeaf
  cases request.holderProof with
  | none => simp
  | some proof => cases config.audience <;> cases config.challengeSecret <;> simp

theorem Accepted.guarantee {request : PeerRequest} {config : PeerConfig} {clock : Readings} {leaf : DelegationCredential}
    {res : PeerResult} (h : Accepted request config clock leaf res) : PeerGuarantee request config clock leaf res := by
  have hchain := (exists_verifyChain_iff.mp ⟨_, h.chain⟩).2.2
  obtain ⟨hreq, happ⟩ := appraiseCallerRuntime_ok_iff.mp h.appraisal
  have hatt : (res.callerAttestation = .notOffered ∧ request.callerOffer = none ∧
        config.requireCallerAttestation = requireNone) ∨
      ∃ offer peer, request.callerOffer = some offer ∧
        appraiseOffer request leaf res.effectiveScope config offer clock.appraisal = .ok peer ∧
        res.callerAttestation = (if peer.assurance = .hardware then .hardware else .softwareOnly) ∧
        (config.requireCallerAttestation = requireHardware → res.callerAttestation = .hardware) := by
    cases ho : request.callerOffer with
    | none =>
      rw [ho] at happ
      exact .inl ⟨happ.2.2, rfl, happ.2.1⟩
    | some offer =>
      rw [ho] at happ
      obtain ⟨peer, hpeer, hout, hhard⟩ := happ
      exact .inr ⟨offer, peer, rfl, hpeer, hout, hhard⟩
  exact
    { chain_accepted := hchain
      leaf_eq := h.leaf_eq
      holder := fun hreq => verifyCallerHoldsLeaf_ok_iff.mp (h.holder hreq)
      requirement := by
        simp only [requirementValues, Finset.mem_insert, Finset.mem_singleton] at hreq
        rcases hatt with ⟨_, _, hnone⟩ | ⟨offer, peer, _, _, hout, hhard⟩
        · exact .inl hnone
        · rcases hreq with hr | hr | hr
          · exact .inl hr
          · refine .inr (.inl ⟨hr, ?_⟩)
            rw [hout]
            split <;> simp
          · exact .inr (.inr ⟨hr, hhard hr⟩)
      granted := h.granted
      permitted := ⟨_, h.effective, rfl, h.permitted⟩
      every_hop := fun hnarrow c hc => by
        rw [h.granted]
        exact hchain.leaf_scope_subset leaf h.leaf_eq c hc (hnarrow _ _ h.effective h.permitted)
      payload := by
        intro blob hblob
        have := h.payload
        rw [hblob] at this
        exact this
      record := h.record
      same_attestation := by rw [h.record]; rfl
      not_failed := by
        rcases hatt with ⟨hatt, _⟩ | ⟨offer, peer, _, _, hout, _⟩
        · simp [hatt]
        · rw [hout]
          split <;> simp
      not_offered := by
        rcases hatt with ⟨hatt, hoffer, _⟩ | ⟨offer, peer, hoffer, _, hout, _⟩
        · simp [hatt, hoffer]
        · rw [hout, hoffer]
          split <;> simp
      hardware := by
        intro hhw
        rcases hatt with ⟨hatt, _⟩ | ⟨offer, peer, hoffer, hpeer, hout, _⟩
        · simp [hatt] at hhw
        · rw [hhw] at hout
          have hassur : peer.assurance = .hardware := by
            by_contra hne
            simp [hne] at hout
          obtain ⟨secret, _, hsecret, _, hcaller, _⟩ := appraiseOffer_ok_iff.mp hpeer
          obtain ⟨hchal, hoff⟩ := appraiseCaller_ok_iff.mp hcaller
          obtain ⟨hrole, _, _, _, hplat⟩ := verifyOffer_ok_iff.mp hoff
          rw [if_neg ((appraiseOffer_attestation hpeer).mp hassur)] at hplat
          obtain ⟨_, verify, hverify, hm⟩ := hplat
          exact ⟨offer, secret, verify, _, hoffer, hsecret, hverify, hrole, hm, hchal⟩ }

/-- **What `handle_peer_request` guarantees.** A result is returned only for a call of which
every field of `PeerGuarantee` holds (a local policy is narrowing, so its granted capability
is in every hop's scope), and no run starts to open the payload before every check has
returned. -/
theorem handlePeerRequest_guarantee (request : PeerRequest) (config : PeerConfig) (clock : Readings) :
    (∀ res, (handlePeerRequest request config clock).result = .ok res →
      ∃ leaf, PeerGuarantee request config clock leaf res) ∧
    (∀ allow, Policy.Narrowing (localPolicy allow)) ∧
    ∀ pre post, (handlePeerRequest request config clock).trace = pre ++ .started .openSealed :: post →
      pre = checksTrace config.requireHolderProof ∧ ChecksPassed request config clock := by
  refine ⟨fun res h => ?_, localPolicy_narrowing, fun pre post h => trace_before_openSealed h⟩
  obtain ⟨leaf, hacc⟩ := handlePeerRequest_ok_iff.mp h
  exact ⟨leaf, hacc.guarantee⟩

end

/-! ## A call in the toy model -/

/-- A callee that lets its peers read. -/
def toyConfig : @PeerConfig Interp.ascii Crypto.toy :=
  let _ := Interp.ascii
  let _ := Crypto.toy
  { policy := localPolicy {lit "read"}
    challengeSecret := some []
    audience := some (lit "callee")
    trustedRootIssuers := {readGrant.issuer} }

/-- A request to read under a chain of one hop. -/
def toyRequest (c : DelegationCredential) (proof : HolderProof) : PeerRequest :=
  { chain := [c], requestedCapability := lit "read", recordId := lit "r0", holderProof := some proof }

def toyReadings : Readings := { chain := 100, holder := 0, appraisal := 0 }

theorem exists_signed {c : DelegationCredential} (hk : hex (List.replicate 32 1) = c.issuer) (hb : Canonical c.body) :
    ∃ sig, @DelegationCredential.Signed Interp.ascii Crypto.toy { c with signature := sig } := by
  let _ := Interp.ascii
  let _ := Crypto.toy
  obtain ⟨c', hc'⟩ := DelegationCredential.exists_sign (show hex (Crypto.edPublic (1 : UInt8)) = c.issuer from hk) hb
  obtain ⟨heq, hsig⟩ := DelegationCredential.sign_ok Crypto.toy_signatureCorrect hc'
  exact ⟨c'.signature, heq ▸ hsig⟩

/-- The toy callee accepts a signed root grant to read with a proof by its subject. -/
theorem toyConfig_accepts {c : DelegationCredential} {proof : HolderProof}
    (hs : @DelegationCredential.Signed Interp.ascii Crypto.toy c) (hi : c.issuer = readGrant.issuer) (hd : c.depth = 0)
    (hp : c.parentId = none) (hw : c.InWindow 100) (hr : lit "read" ∈ c.scope)
    (hproof : @verifyHolderProof Crypto.toy Interp.ascii proof c [] readParams 0 = .ok ()) :
    ∃ res, (@handlePeerRequest Interp.ascii Crypto.toy (toyRequest c proof) toyConfig toyReadings).result = .ok res ∧
      res.record = recordFor c (lit "r0") none .notOffered := by
  let _ := Interp.ascii
  let _ := Crypto.toy
  obtain ⟨st, hst⟩ := exists_verifyChain_iff.mpr
    ⟨by simp, by simp, ChainAccepted.single (c := c) hs hd hp hw⟩
  refine ⟨⟨c.scope ∩ {lit "read"}, lit "read", recordFor c (lit "r0") none .notOffered, none, .notOffered, st⟩,
    handlePeerRequest_ok_iff.mpr ⟨c, ?_⟩, rfl⟩
  exact
    { leaf_eq := rfl
      chain := by rw [hi] at hst; exact hst
      holder := fun _ => verifyCallerHoldsLeaf_ok_iff.mpr ⟨proof, _, _, rfl, rfl, rfl, hproof⟩
      effective := rfl
      appraisal := appraiseCallerRuntime_ok_iff.mpr ⟨by simp [toyConfig, requirementValues], rfl, rfl, rfl⟩
      granted := rfl
      permitted := by simp [toyRequest, hr]
      record := rfl
      payload := rfl }

theorem handlePeerRequest_guarantee_readGrant :
    let _ := Interp.ascii
    let _ := Crypto.toy
    ∃ c proof res leaf, (handlePeerRequest (toyRequest c proof) toyConfig toyReadings).result = .ok res ∧
      PeerGuarantee (toyRequest c proof) toyConfig toyReadings leaf res := by
  let _ := Interp.ascii
  let _ := Crypto.toy
  obtain ⟨sig, hs⟩ := exists_signed rfl readGrant_canonical
  obtain ⟨proof, hproof⟩ := exists_readProof_verifies
  obtain ⟨res, hres, -⟩ := toyConfig_accepts hs rfl rfl rfl (by simp [DelegationCredential.InWindow, readGrant])
    (by simp [readGrant]) (hproof _ rfl rfl)
  obtain ⟨leaf, h⟩ := (handlePeerRequest_guarantee _ _ _).1 res hres
  exact ⟨_, proof, res, leaf, hres, h⟩

end Ca2a
