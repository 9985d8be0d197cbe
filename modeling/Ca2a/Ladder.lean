/-
The ladder of `require_caller_attestation`.

The requirement is read in two places: when the caller offers nothing, and
after an offer has appraised. The appraisal of an offer itself never sees it,
so what one rung accepts the rungs below accept with the same result, and
evidence that fails is refused at each of them, as failed.
-/
import Ca2a.NodeErrors
import Ca2a.Refusals

namespace Ca2a

open Py

section
variable [Interp] [Crypto]

/-- The configuration at another rung. -/
def PeerConfig.requiring (config : PeerConfig) (requirement : Str) : PeerConfig :=
  { config with requireCallerAttestation := requirement }

/-! ## One rung down -/

/-- The lower rung accepts no offer less, and hardware only where the upper one does. -/
structure Relaxes (upper lower : Str) : Prop where
  mem : lower ∈ requirementValues
  offers : upper = requireNone → lower = requireNone
  hardware : lower = requireHardware → upper = requireHardware

omit [Interp] [Crypto] in
theorem relaxes_hardware_any : Relaxes requireHardware requireAny := ⟨by decide, by decide, by decide⟩

omit [Interp] [Crypto] in
theorem relaxes_any_none : Relaxes requireAny requireNone := ⟨by decide, by decide, by decide⟩

theorem appraiseCallerRuntime_relaxes {upper lower : Str} (h : Relaxes upper lower) {request : PeerRequest}
    {leaf : DelegationCredential} {effective : Finset Str} {config : PeerConfig} {now : Int} {att : CallerAttestation}
    (hatt : appraiseCallerRuntime request leaf effective (config.requiring upper) now = .ok att) :
    appraiseCallerRuntime request leaf effective (config.requiring lower) now = .ok att := by
  obtain ⟨_, happraised⟩ := appraiseCallerRuntime_ok_iff.mp hatt
  refine appraiseCallerRuntime_ok_iff.mpr ⟨h.mem, ?_⟩
  cases hoffer : request.callerOffer with
  | none =>
    rw [hoffer] at happraised
    obtain ⟨hpossession, hnone, hnotOffered⟩ := happraised
    exact ⟨hpossession, h.offers hnone, hnotOffered⟩
  | some offer =>
    rw [hoffer] at happraised
    obtain ⟨peer, hpeer, houtcome, hfloor⟩ := happraised
    exact ⟨peer, hpeer, houtcome, fun hlower => hfloor (h.hardware hlower)⟩

/-- **What one rung accepts the lower one accepts alike.** -/
theorem handlePeerRequest_relaxes {upper lower : Str} (h : Relaxes upper lower) {request : PeerRequest}
    {config : PeerConfig} {clock : Readings} {res : PeerResult}
    (hres : (handlePeerRequest request (config.requiring upper) clock).result = .ok res) :
    (handlePeerRequest request (config.requiring lower) clock).result = .ok res := by
  obtain ⟨leaf, ha⟩ := handlePeerRequest_ok_iff.mp hres
  exact handlePeerRequest_ok_iff.mpr ⟨leaf, ha.leaf_eq, ha.chain, ha.holder, ha.effective,
    appraiseCallerRuntime_relaxes h ha.appraisal, ha.granted, ha.permitted, ha.record, ha.payload⟩

/-! ## Evidence that fails -/

/-- What is checked of an offer: its challenge, role, key and platform, and that the caller possesses the key. -/
structure OfferPasses (request : PeerRequest) (leaf : DelegationCredential) (config : PeerConfig) (offer : ChannelOffer)
    (now : Int) : Prop where
  challenge : ∃ secret, config.challengeSecret = some secret ∧ verifyChallenge secret offer.report.nonce now = .ok ()
  role : offer.report.role = roleCaller
  key : offer.report.publicKey = offer.channelPublicKey
  platform : offer.report.platform ≠ softwareOnly → ∃ verify measurement, config.callerVerifier = some verify ∧
    verify offer.report offer.report.nonce = .ok measurement
  possession : ∃ key, config.enclavePrivateKey = some key ∧
    verifyCallerPossession request.callerPossession key (requestTranscript request leaf offer key) = .ok ()

/-- No check of an offer reads the requirement. -/
theorem OfferPasses.requiring {request : PeerRequest} {leaf : DelegationCredential} {config : PeerConfig}
    {requirement : Str} {offer : ChannelOffer} {now : Int}
    (h : OfferPasses request leaf (config.requiring requirement) offer now) : OfferPasses request leaf config offer now :=
  ⟨h.challenge, h.role, h.key, h.platform, h.possession⟩

/-- The evidence of the caller's runtime fails: an offer that does not pass, or a proof of possession for none. -/
def EvidenceFails (request : PeerRequest) (leaf : DelegationCredential) (config : PeerConfig) (now : Int) : Prop :=
  match request.callerOffer with
  | none => request.callerPossession ≠ none
  | some offer => ¬ OfferPasses request leaf config offer now

theorem EvidenceFails.requiring {request : PeerRequest} {leaf : DelegationCredential} {config : PeerConfig} {now : Int}
    (h : EvidenceFails request leaf config now) (requirement : Str) :
    EvidenceFails request leaf (config.requiring requirement) now := by
  unfold EvidenceFails at h ⊢
  cases hoffer : request.callerOffer with
  | none =>
    rw [hoffer] at h
    exact h
  | some offer =>
    rw [hoffer] at h
    exact fun hpasses => h hpasses.requiring

theorem exists_appraiseOffer_iff {request : PeerRequest} {leaf : DelegationCredential} {effective : Finset Str}
    {config : PeerConfig} {offer : ChannelOffer} {now : Int} :
    (∃ peer, appraiseOffer request leaf effective config offer now = .ok peer) ↔
      OfferPasses request leaf config offer now := by
  simp only [appraiseOffer_ok_iff, appraiseCaller_ok_iff, verifyOffer_ok_iff]
  constructor
  · intro h
    obtain ⟨peer, secret, key, hsecret, hkey, ⟨hchallenge, hrole, hbinds, _, _, hplatform⟩, hpossession⟩ := h
    refine ⟨⟨secret, hsecret, hchallenge⟩, hrole, hbinds, fun hhardware => ?_, key, hkey, hpossession⟩
    rw [if_neg hhardware] at hplatform
    obtain ⟨_, verify, hverifier, hmeasured⟩ := hplatform
    exact ⟨verify, peer.measurement, hverifier, hmeasured⟩
  · intro h
    obtain ⟨⟨secret, hsecret, hchallenge⟩, hrole, hbinds, hplatform, key, hkey, hpossession⟩ := h
    by_cases hsoftware : offer.report.platform = softwareOnly
    · refine ⟨⟨offer.channelPublicKey, .none, offer.report.measurement⟩, secret, key, hsecret, hkey, ⟨hchallenge, hrole,
        hbinds, trivial, rfl, ?_⟩, hpossession⟩
      rw [if_pos hsoftware]
      exact ⟨rfl, rfl⟩
    · obtain ⟨verify, measurement, hverifier, hmeasured⟩ := hplatform hsoftware
      refine ⟨⟨offer.channelPublicKey, .hardware, measurement⟩, secret, key, hsecret, hkey, ⟨hchallenge, hrole, hbinds,
        trivial, rfl, ?_⟩, hpossession⟩
      rw [if_neg hsoftware]
      exact ⟨rfl, verify, hverifier, hmeasured⟩

omit [Interp] [Crypto] in
/-- The texts of the request that the appraisal encodes can be. -/
structure PeerRequest.Encodes (request : PeerRequest) : Prop where
  texts : request.TextsEncode
  nonce : ∀ offer ∈ request.callerOffer, Clean offer.report.nonce
  mac : ∀ possession ∈ request.callerPossession, Clean possession.mac

/-- A verifier that returns a measurement or raises `AttestationFailed`. -/
def Verifier.Appraises (verify : Verifier) : Prop :=
  ∀ report nonce, Spec (verify report nonce) (fun _ => True) (Exc.isClass .attestationFailed)

/-- The refusal of evidence that failed. -/
def RefusesFailed (request : PeerRequest) (leaf : DelegationCredential) (effective : Finset Str) (e : Exc) : Prop :=
  ∃ reason detail, e = .app
    { cls := .attestationFailed
      message := reason
      detail := detail
      record := some (denialRecordFor leaf request.recordId request.parentRecordHash request.requestedCapability effective
        reason .failed) }

omit [Interp] [Crypto] in
theorem refuse_failed {α : Type} (request : PeerRequest) (leaf : DelegationCredential) (effective : Finset Str)
    (reason : Str) (detail : Option Str) :
    Spec (refuse request leaf effective reason .failed detail : Result α) (fun _ => True)
      (RefusesFailed request leaf effective) := ⟨reason, detail, rfl⟩

theorem appraiseCaller_spec {offer : ChannelOffer} (hnonce : Clean offer.report.nonce) (secret : Bytes)
    {verifier : Option Verifier} (hv : ∀ verify ∈ verifier, verify.Appraises) (now : Int) :
    Spec (appraiseCaller offer secret verifier now) (fun _ => True) (Exc.isClass .attestationFailed) := by
  refine (verifyChallenge_spec (not_dirtyChallenge hnonce) secret now).bind fun _ _ => ?_
  unfold verifyOffer
  dsimp only
  split
  · exact rfl
  split
  · exact rfl
  split
  · exact rfl
  split
  · exact trivial
  cases verifier with
  | none => exact rfl
  | some verify =>
    refine Spec.bind (hv verify rfl _ _) fun _ _ => ?_
    exact trivial

/-- **The appraisal of an offer passes it, or refuses it as failed.** -/
theorem appraiseOffer_spec {request : PeerRequest} (he : request.Encodes) {leaf : DelegationCredential}
    (hleaf : Clean leaf.credentialId ∧ Clean leaf.subject) (effective : Finset Str) {config : PeerConfig}
    (hv : ∀ verify ∈ config.callerVerifier, verify.Appraises) {offer : ChannelOffer} (hoffer : request.callerOffer = some offer)
    (now : Int) :
    Spec (appraiseOffer request leaf effective config offer now) (fun _ => True) (RefusesFailed request leaf effective) := by
  have hnonce := he.nonce offer hoffer
  unfold appraiseOffer
  cases config.challengeSecret with
  | none => exact refuse_failed _ _ _ _ _
  | some secret =>
    refine (catchClass_spec ((appraiseCaller_spec hnonce secret hv now).mono (fun _ _ => trivial) fun _ he => .inr he)
      fun _ => refuse_failed _ _ _ _ _).bind fun peer _ => ?_
    cases config.enclavePrivateKey with
    | none => exact refuse_failed _ _ _ _ _
    | some key =>
      have hcontained : Contained (verifyCallerPossession request.callerPossession key
          (requestTranscript request leaf offer key)) :=
        (contained_verifyCallerPossession_iff hleaf.1 hleaf.2 hnonce).mpr fun possession hp _ _ => ⟨he.texts, he.mac _ hp⟩
      -- of the runtime's own errors, `AttestationFailed` only
      have hclass := hcontained.isClass (verifyCallerPossession_raises (fun _ _ => False.elim) (fun _ _ _ => rfl) _ _ _)
      exact (catchClass_spec (hclass.mono (fun _ _ => trivial) fun _ he => .inr he)
        fun _ => refuse_failed _ _ _ _ _).bind fun _ _ => trivial

/-- Evidence that fails is refused whatever is required. -/
theorem appraiseCallerRuntime_refuses {request : PeerRequest} (he : request.Encodes) {leaf : DelegationCredential}
    (hleaf : Clean leaf.credentialId ∧ Clean leaf.subject) (effective : Finset Str) (config : PeerConfig)
    (hv : ∀ verify ∈ config.callerVerifier, verify.Appraises) {now : Int} (hfails : EvidenceFails request leaf config now)
    (hreq : config.requireCallerAttestation ∈ requirementValues) :
    ∃ e, appraiseCallerRuntime request leaf effective config now = .error e ∧ RefusesFailed request leaf effective e := by
  unfold appraiseCallerRuntime
  dsimp only
  rw [if_neg (not_not.mpr hreq)]
  unfold EvidenceFails at hfails
  cases hoffer : request.callerOffer with
  | none =>
    rw [hoffer] at hfails
    simp only [ne_eq, hfails, not_false_eq_true, if_true]
    exact ⟨_, rfl, _, _, rfl⟩
  | some offer =>
    rw [hoffer] at hfails
    cases happraised : appraiseOffer request leaf effective config offer now with
    | ok peer => exact absurd (exists_appraiseOffer_iff.mp ⟨peer, happraised⟩) hfails
    | error e => exact ⟨e, by simp [happraised], (appraiseOffer_spec he hleaf effective hv hoffer now).of_error happraised⟩

/-- **The ladder is monotone, and broken evidence is refused at every rung.** A result under `hardware` is the result under
`any`, and one under `any` the result under `none`. Once the chain and the required holder proof have verified and the
policy has returned, an offer that fails a check, or a proof of possession without an offer, is refused with a record that
says so, whatever is required. -/
theorem attestation_ladder :
    (∀ (request : PeerRequest) (config : PeerConfig) clock res,
      (handlePeerRequest request (config.requiring requireHardware) clock).result = .ok res →
      (handlePeerRequest request (config.requiring requireAny) clock).result = .ok res) ∧
    (∀ (request : PeerRequest) (config : PeerConfig) clock res,
      (handlePeerRequest request (config.requiring requireAny) clock).result = .ok res →
      (handlePeerRequest request (config.requiring requireNone) clock).result = .ok res) ∧
    ∀ (request : PeerRequest) (config : PeerConfig) clock leaf effective, request.Encodes →
      (∀ verify ∈ config.callerVerifier, verify.Appraises) → ChainVerifies request config clock →
      request.chain.getLast? = some leaf → HolderVerifies request config clock leaf →
      config.policy leaf.scope = .ok effective → EvidenceFails request leaf config clock.appraisal →
      ∀ requirement ∈ requirementValues, ∃ e,
        (handlePeerRequest request (config.requiring requirement) clock).result = .error e ∧
          RefusesFailed request leaf effective e := by
  refine ⟨fun _ _ _ _ => handlePeerRequest_relaxes relaxes_hardware_any,
    fun _ _ _ _ => handlePeerRequest_relaxes relaxes_any_none, ?_⟩
  intro request config clock leaf effective he hv hchain hlast hholder hpolicy hfails requirement hreq
  obtain ⟨st, hst⟩ := hchain
  obtain ⟨e, happraisal, hrefuses⟩ := appraiseCallerRuntime_refuses he (clean_leaf hst hlast) effective
    (config.requiring requirement) hv (hfails.requiring requirement) hreq
  have hauth : (authenticate request (config.requiring requirement) clock).result = .ok (st, leaf) :=
    authenticate_ok_iff.mpr ⟨hst, hlast, hholder⟩
  refine ⟨e, ?_, hrefuses⟩
  have hpolicy' : (config.requiring requirement).policy leaf.scope = .ok effective := hpolicy
  rw [handlePeerRequest_eq, Traced.bind_result, hauth, ok_bind]
  simp only [authorize, Traced.bind_result, Traced.step_result, hpolicy', ok_bind, happraisal, error_bind]

end

/-! ## A caller in a TPM -/

/-- A callee that demands hardware of its callers, and believes every quote. -/
def demandingConfig : @PeerConfig Interp.ascii Crypto.wire :=
  let _ := Interp.ascii
  let _ := Crypto.wire
  { policy := localPolicy {lit "read"}
    enclavePrivateKey := some (3 : UInt8)
    challengeSecret := some []
    requireCallerAttestation := requireHardware
    callerVerifier := some fun report _ => .ok report.measurement
    requireHolderProof := false
    trustedRootIssuers := {readGrant.issuer} }

/-- A request with a quote, and this proof of possession. -/
def quotedRequest (possession : Option CallerPossession) : PeerRequest where
  chain := [wireGrant]
  requestedCapability := lit "read"
  recordId := lit "r0"
  callerOffer := some
    { channelPublicKey := hex (List.replicate 32 5)
      report :=
        { platform := lit "tpm", measurement := lit "pcr", publicKey := hex (List.replicate 32 5), nonce := toyChallenge,
          role := roleCaller } }
  callerPossession := possession

/-- The request is accepted on every rung with the proof, and on none without. -/
theorem attestation_ladder_quotedRequest :
    let _ := Interp.ascii
    let _ := Crypto.wire
    let possession : CallerPossession := { version := callerOfferVersion, mac := hex (List.replicate 32 0) }
    (∃ res, (handlePeerRequest (quotedRequest (some possession)) (demandingConfig.requiring requireAny) toyReadings).result =
        .ok res ∧
      (handlePeerRequest (quotedRequest (some possession)) (demandingConfig.requiring requireNone) toyReadings).result =
        .ok res) ∧
    ∀ requirement ∈ requirementValues, ∃ e,
      (handlePeerRequest (quotedRequest none) (demandingConfig.requiring requirement) toyReadings).result = .error e ∧
        RefusesFailed (quotedRequest none) wireGrant {lit "read"} e := by
  intro _ _ possession
  obtain ⟨hany, hnone, hrefused⟩ := attestation_ladder
  constructor
  · have hrun : (handlePeerRequest (quotedRequest (some possession)) (demandingConfig.requiring requireHardware)
        toyReadings).result.isOk = true := by decide +kernel
    obtain ⟨res, hres⟩ := exists_of_isOk hrun
    exact ⟨res, hany _ _ _ _ hres, hnone _ _ _ _ (hany _ _ _ _ hres)⟩
  · have hsingle : ChainAccepted [wireGrant] 8 {wireGrant.issuer} none 100 none none :=
      .single wireGrant_signed rfl rfl (by simp [DelegationCredential.InWindow, wireGrant, readGrant])
    refine hrefused (quotedRequest none) demandingConfig toyReadings wireGrant {lit "read"} ?_ ?_ ?_ rfl ?_ ?_ ?_
    · refine ⟨⟨clean_lit _, clean_lit _, by simp [quotedRequest], by simp [quotedRequest]⟩, ?_, by simp [quotedRequest]⟩
      intro offer hoffer
      cases hoffer
      exact toyChallenge_clean
    · intro verify hverify
      cases hverify
      exact fun _ _ => trivial
    · exact exists_verifyChain_iff.mpr ⟨by simp, by simp [demandingConfig], hsingle⟩
    · exact fun h => by cases h
    · exact congrArg Except.ok (by decide : wireGrant.scope ∩ {lit "read"} = {lit "read"})
    · intro hpasses
      obtain ⟨_, _, hpossession⟩ := hpasses.possession
      exact raise_ne_ok hpossession

end Ca2a
