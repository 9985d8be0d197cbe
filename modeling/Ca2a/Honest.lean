/-
An honest call succeeds.

Caller and callee build the sealed payload, the proofs and the metadata each
on their own. What they build agrees field by field: the payload opens
(`openSealed_sealTo`), a proof of possession verifies (`possession_verifies`),
the message parses back (`parse_taskMessage`), and so every step of the
callee returns (`accepted_of_honest`).
-/
import Ca2a.ClientFacts
import Ca2a.SealedChannel

namespace Ca2a

open Py

/-! ## The primitives -/

/-- The primitives do what they are for. -/
structure Crypto.Correct [Crypto] : Prop where
  /-- Both ends of an agreement get one secret. -/
  agreement : ∀ a b, ∃ shared, Crypto.exchange a (Crypto.xPublic b) = .ok shared ∧
    Crypto.exchange b (Crypto.xPublic a) = .ok shared
  xPublic : ∀ key, (Crypto.xPublic key).length = 32
  signature : Crypto.SignatureCorrect
  hmac : ∀ key msg, (Crypto.hmac key msg).length = 32
  hkdf : ∀ salt info ikm, (Crypto.hkdf salt info ikm).length = 32
  aead : ∀ key nonce payload aad, key.length = 32 → nonce.length = 12 →
    Crypto.aeadDecrypt key nonce (Crypto.aeadEncrypt key nonce payload aad) aad = .ok payload

section
variable [Interp] [Crypto]

omit [Interp] in
theorem exchangeKey_eq {key : Crypto.XKey} {pub shared : Bytes} (h : Crypto.exchange key pub = .ok shared) :
    exchangeKey key pub = .ok shared := by
  simp only [exchangeKey, h]

omit [Crypto] in
theorem fromHex_hex (b : Bytes) : fromHex (ε := CA2AError) (hex b) = .ok b := fromHex_ok_iff.mpr (fromHex?_hex b)

/-- **What is sealed to a key, its holder opens.** -/
theorem openSealed_sealTo (hc : Crypto.Correct) (key ephemeral : Crypto.XKey) {nonce : Bytes} (hn : nonce.length = 12)
    (payload : Bytes) :
    ∃ blob, sealTo (hex (Crypto.xPublic key)) ephemeral nonce payload [] = .ok blob ∧ blob ≠ [] ∧
      openSealed blob key = .ok payload := by
  obtain ⟨shared, hout, hin⟩ := hc.agreement ephemeral key
  refine ⟨_, sealTo_ok_iff.mpr ⟨_, shared, fromHex?_hex _, hout, rfl⟩, by simp [sealedBlob],
    openSealed_ok_iff.mpr ⟨_, _, _, shared, hc.xPublic ephemeral, hn, rfl, hin, ?_⟩⟩
  exact hc.aead _ _ _ _ (hc.hkdf _ _ _) hn

/-! ## The proofs -/

theorem possessionKey_eq {privateKey : Crypto.XKey} {peer caller callee shared : Bytes}
    (h : Crypto.exchange privateKey peer = .ok shared) :
    possessionKey privateKey (hex peer) (hex caller) (hex callee) =
      .ok (Crypto.hkdf none (asciiBytes "ca2a/caller-possession/v2/key") (caller ++ callee ++ shared)) := by
  simp only [possessionKey, fromHex_hex, ok_bind, exchangeKey_eq h, catchBuiltin]

/-- **A proof of possession verifies at the callee it names.** -/
theorem possession_verifies (hc : Crypto.Correct) (caller callee : Crypto.XKey) {transcript : Dict Json}
    (hcaller : Dict.get? transcript (lit "caller_channel_key") = some (.str (hex (Crypto.xPublic caller))))
    (hcallee : Dict.get? transcript (lit "callee_channel_key") = some (.str (hex (Crypto.xPublic callee))))
    (hcanonical : Canonical (.obj transcript)) :
    ∃ possession, proveCallerPossession caller (hex (Crypto.xPublic callee)) transcript = .ok possession ∧
      possession.version ≠ [] ∧ possession.mac ≠ [] ∧
      verifyCallerPossession (some possession) callee transcript = .ok () := by
  obtain ⟨shared, hout, hin⟩ := hc.agreement caller callee
  obtain ⟨msg, hmsg⟩ := exists_canonicalize_iff.mpr hcanonical
  let key := Crypto.hkdf none (asciiBytes "ca2a/caller-possession/v2/key")
    (Crypto.xPublic caller ++ Crypto.xPublic callee ++ shared)
  let mac := hex (Crypto.hmac key (asciiBytes "ca2a/caller-possession/v2/statement" ++ [0] ++ msg))
  have hprove : possessionMac caller (hex (Crypto.xPublic callee)) (hex (Crypto.xPublic caller))
      (hex (Crypto.xPublic callee)) transcript = .ok mac := by
    rw [possessionMac, possessionKey_eq hout, ok_bind, hmsg]
    rfl
  have hcheck : possessionMac callee (hex (Crypto.xPublic caller)) (hex (Crypto.xPublic caller))
      (hex (Crypto.xPublic callee)) transcript = .ok mac := by
    rw [possessionMac, possessionKey_eq hin, ok_bind, hmsg]
    rfl
  have hmac : mac ≠ [] := by
    rw [← List.length_pos_iff, hex_length, hc.hmac]
    decide
  have hversion : callerOfferVersion ≠ [] := by decide
  refine ⟨⟨callerOfferVersion, mac⟩, ?_, hversion, hmac, (verifyCallerPossession_ok_iff hcallee hcaller).mpr ⟨mac, hcheck, rfl⟩⟩
  simp only [proveCallerPossession, hcaller, hcallee, Option.bind_some, Json.str?, ne_eq, not_true_eq_false, if_false,
    hprove, ok_bind]

/-! ## Offers -/

omit [Interp] [Crypto] in
/-- A provider reports on the key and the nonce it is asked for, and what evidence it gives is not empty. -/
structure Provider.Faithful (provider : Provider) : Prop where
  binding : provider.Binding
  evidence : ∀ key nonce role report, provider key nonce role = .ok report →
    report.rawEvidence ≠ some [] ∧ report.quoteSignature ≠ some [] ∧ report.attestationKeyPem ≠ some [] ∧
      report.attestationKeyChainPem ≠ some []

omit [Interp] [Crypto] in
theorem softwareProvider_faithful : softwareProvider.Faithful where
  binding := softwareProvider_binding
  evidence := by
    intro key nonce role report h
    cases h
    simp

omit [Interp] [Crypto] in
/-- What an honest offer is. -/
structure OfferFor (key nonce role : Str) (offer : ChannelOffer) : Prop where
  channelKey : offer.channelPublicKey = key
  reportKey : offer.report.publicKey = key
  nonce : offer.report.nonce = nonce
  role : offer.report.role = role
  wire : offer.WireValid

omit [Crypto] in
theorem offerFor_of_attest {provider : Provider} (hp : provider.Faithful) {key nonce role : Str} (hrole : role ∈ roles)
    {offer : ChannelOffer} (h : attestChannel provider key nonce role = .ok offer) : OfferFor key nonce role offer := by
  rw [attestChannel, bind_ok_iff] at h
  obtain ⟨report, hreport, h⟩ := h
  split at h
  · cases h
  rename_i hr
  rw [not_not] at hr
  cases h
  obtain ⟨hkey, hnonce⟩ := hp.binding _ _ _ _ hreport
  obtain ⟨hraw, hquote, hpem, hchain⟩ := hp.evidence _ _ _ _ hreport
  exact ⟨rfl, hkey, hnonce, hr, ⟨hr ▸ hrole, hraw, hquote, hpem, hchain⟩⟩

omit [Interp] [Crypto] in
/-- The verifier returns for the report of a hardware offer. -/
def VerifierAccepts (verifier : Option Verifier) (offer : ChannelOffer) : Prop :=
  offer.report.platform ≠ softwareOnly → ∃ verify measurement, verifier = some verify ∧
    verify offer.report offer.report.nonce = .ok measurement

omit [Crypto] in
/-- An honest offer that the verifier accepts appraises, as what its platform is. -/
theorem exists_verifyOffer {verifier : Option Verifier} {requireHardware : Bool} {key nonce role : Str}
    {offer : ChannelOffer} (ho : OfferFor key nonce role offer) (hv : VerifierAccepts verifier offer)
    (hh : requireHardware = true → offer.report.platform ≠ softwareOnly) :
    ∃ peer, verifyOffer offer nonce verifier requireHardware role = .ok peer ∧ peer.publicKey = key ∧
      (peer.assurance = .hardware ↔ offer.report.platform ≠ softwareOnly) := by
  have hkeys : offer.report.publicKey = offer.channelPublicKey := ho.reportKey.trans ho.channelKey.symm
  by_cases hplatform : offer.report.platform = softwareOnly
  · refine ⟨⟨offer.channelPublicKey, .none, offer.report.measurement⟩, ?_, ho.channelKey, by simp [hplatform]⟩
    rw [verifyOffer_requireHardware]
    refine ⟨verifyOffer_ok_iff.mpr ⟨ho.role, hkeys, ho.nonce, rfl, ?_⟩, hh⟩
    rw [if_pos hplatform]
    exact ⟨rfl, rfl⟩
  · obtain ⟨verify, measurement, hverify, hm⟩ := hv hplatform
    rw [ho.nonce] at hm
    refine ⟨⟨offer.channelPublicKey, .hardware, measurement⟩, ?_, ho.channelKey, by simp [hplatform]⟩
    rw [verifyOffer_requireHardware]
    refine ⟨verifyOffer_ok_iff.mpr ⟨ho.role, hkeys, ho.nonce, rfl, ?_⟩, hh⟩
    rw [if_neg hplatform]
    exact ⟨rfl, verify, hverify, hm⟩

/-! ## The handshake -/

/-- The peer answers the handshake as the node does: with the node's offer for the nonce and a challenge that the node
issues at the time `issued`. -/
structure AnswersFor (server : Server) (node : PeerNode) (nonce : Str) (issued : Int) (random : Bytes)
    (offer : ChannelOffer) (challenge : Str) : Prop where
  scheme : server.scheme ∈ allowedSchemes
  offered : node.offer nonce = .ok offer
  challenged : node.issueChallenge issued random = .ok challenge
  answer : server.channel nonce = .ok (.obj (serializeChannelOffer offer (some challenge)))

/-- **A handshake with an honest node returns** its key and its challenge. -/
theorem exists_handshake {server : Server} {node : PeerNode} {nonce : Str} {issued : Int} {random : Bytes}
    {offer : ChannelOffer} {challenge : Str} (hs : AnswersFor server node nonce issued random offer challenge)
    (hp : node.provider.Faithful) {verifier : Option Verifier} (hv : VerifierAccepts verifier offer)
    {requireHardware : Bool} (hh : requireHardware = true → offer.report.platform ≠ softwareOnly) :
    ∃ hello, (handshake server verifier requireHardware nonce).result = .ok hello ∧
      hello.peer.publicKey = node.channelPublicKey ∧ hello.challenge = some challenge := by
  have hoffer : OfferFor node.channelPublicKey nonce roleCallee offer := offerFor_of_attest hp (by decide) hs.offered
  obtain ⟨peer, hpeer, hkey, -⟩ := exists_verifyOffer hoffer hv hh
  obtain ⟨-, hne⟩ := issueChallenge_clean hs.challenged
  have hscheme : requireHttpUrl server.scheme = .ok () := if_neg (not_not.mpr hs.scheme)
  refine ⟨⟨peer, some challenge⟩, ?_, hkey, rfl⟩
  simp only [handshake, Traced.bind_result, Run.of_result, Run.exchange_result, Traced.pure_result, bind_ok_iff,
    mapError_ok_iff, Except.ok.injEq]
  exact ⟨(), hscheme, _, hs.answer, offer, parseChannelOffer_serialize hoffer.wire _, peer, hpeer, _,
    parseChallenge_serialize (by simpa using hne), rfl⟩

/-! ## The request -/

omit [Interp] in
/-- The arguments of an honest call under the chain's leaf: its key is held and every text can be encoded. -/
structure TaskArgs.Honest (args : TaskArgs) (leaf : DelegationCredential) : Prop where
  wire : ∀ c ∈ args.chain, c.WireValid
  leaf_eq : args.chain.getLast? = some leaf
  holds : hex (Crypto.edPublic args.holderKey) = leaf.subject
  capability : Clean args.requestedCapability ∧ args.requestedCapability ≠ []
  recordId : Clean args.recordId ∧ args.recordId ≠ []
  parentRecordHash : ∀ h ∈ args.parentRecordHash, Clean h

/-- What the caller's provider made for the call, if there is one. -/
def TaskArgs.offers (args : TaskArgs) (draws : Draws) (challenge : Str) : Result (Option ChannelOffer) :=
  optional (fun provider => offerChannel provider draws.callerKey challenge roleCaller) args.callerProvider

omit [Interp] in
/-- What was sealed opens to the payload, if there is one. -/
def SealedFor (key : Crypto.XKey) : (payload sealedPayload : Option Bytes) → Prop
  | none, sealedPayload => sealedPayload = none
  | some payload, sealedPayload => ∃ blob, sealedPayload = some blob ∧ blob ≠ [] ∧ openSealed blob key = .ok payload

/-- A proof of possession verifies for the offer, if there is one. -/
def PossessedFor (key : Crypto.XKey) (transcript : ChannelOffer → Dict Json) :
    Option ChannelOffer → Option CallerPossession → Prop
  | none, possession => possession = none
  | some offer, possession => ∃ p, possession = some p ∧ p.version ≠ [] ∧ p.mac ≠ [] ∧
      verifyCallerPossession (some p) key (transcript offer) = .ok ()

/-- What an honest request holds for the node with the key. -/
structure Presents (args : TaskArgs) (key : Crypto.XKey) (leaf : DelegationCredential) (challenge : Str)
    (offer : Option ChannelOffer) (request : PeerRequest) : Prop where
  chain : request.chain = args.chain
  capability : request.requestedCapability = args.requestedCapability
  recordId : request.recordId = args.recordId
  parentRecordHash : request.parentRecordHash = args.parentRecordHash
  callerOffer : request.callerOffer = offer
  payload : SealedFor key args.payload request.sealedPayload
  holderProof : ∃ proof, request.holderProof = some proof ∧ proof.challenge = challenge ∧ proof.signature ≠ [] ∧
    SignedBy leaf.subject proof.signature
      (proofBody ((holderParams request (hex (Crypto.xPublic key))).fields leaf challenge))
  possession : PossessedFor key (fun o => requestTranscript request leaf o key) offer request.callerPossession

/-- The payload of an honest call, sealed. -/
theorem exists_sealed (hc : Crypto.Correct) {peer : VerifiedPeer} {key : Crypto.XKey}
    (hkey : peer.publicKey = hex (Crypto.xPublic key)) {draws : Draws} (hn : draws.sealNonce.length = 12)
    (payload : Option Bytes) :
    ∃ sealedPayload, optional (sealToPeer peer draws.sealKey draws.sealNonce) payload = .ok sealedPayload ∧
      SealedFor key payload sealedPayload := by
  cases payload with
  | none => exact ⟨none, rfl, rfl⟩
  | some payload =>
    obtain ⟨blob, hblob, hne, hopen⟩ := openSealed_sealTo hc key draws.sealKey hn payload
    refine ⟨some blob, ?_, blob, rfl, hne, hopen⟩
    rw [optional, sealToPeer, hkey, hblob]
    rfl

/-- The holder proof of an honest call. -/
theorem exists_holderProof (hc : Crypto.Correct) {key : Crypto.EdKey} {leaf : DelegationCredential} {challenge : Str}
    {p : HolderParams} (hholds : hex (Crypto.edPublic key) = leaf.subject)
    (hbody : Canonical (proofBody (p.fields leaf challenge))) :
    ∃ proof, buildHolderProof key leaf challenge p = .ok proof ∧ proof.challenge = challenge ∧ proof.signature ≠ [] ∧
      Clean proof.signature ∧ SignedBy leaf.subject proof.signature (proofBody (p.fields leaf challenge)) := by
  obtain ⟨msg, hmsg⟩ := exists_canonicalize_iff (ε := CA2AError) |>.mpr hbody
  have hbuild : buildHolderProof key leaf challenge p = .ok ⟨challenge, hex (Crypto.edSign key msg)⟩ := by
    simp only [buildHolderProof, hholds, ne_eq, not_true_eq_false, if_false, hmsg, ok_bind]
  have hsig : hex (Crypto.edSign key msg) ≠ [] := by
    rw [← List.length_pos_iff, hex_length]
    have := List.length_pos_iff.mpr (hc.signature key msg).2.2
    omega
  exact ⟨_, hbuild, rfl, hsig, clean_hex _, signedBy_of_build hc.signature hbuild⟩

/-- The proof of possession of an honest call, if there is an offer. -/
theorem exists_possession (hc : Crypto.Correct) {args : TaskArgs} {draws : Draws} {key : Crypto.XKey} {peer : VerifiedPeer}
    (hkey : peer.publicKey = hex (Crypto.xPublic key)) {leaf : DelegationCredential} {challenge : Str}
    {sealedPayload : Option Bytes} {proof : HolderProof} {offer : Option ChannelOffer}
    (hoffer : ∀ o ∈ offer, OfferFor (hex (Crypto.xPublic draws.callerKey)) challenge roleCaller o)
    (hcanonical : ∀ o ∈ offer, Canonical (.obj (args.transcript leaf challenge peer sealedPayload proof o))) :
    ∃ possession, optional (fun o => proveCallerPossession draws.callerKey peer.publicKey
        (args.transcript leaf challenge peer sealedPayload proof o)) offer = .ok possession ∧
      PossessedFor key (args.transcript leaf challenge peer sealedPayload proof) offer possession := by
  cases offer with
  | none => exact ⟨none, rfl, rfl⟩
  | some o =>
    have hcaller : Dict.get? (args.transcript leaf challenge peer sealedPayload proof o) (lit "caller_channel_key") =
        some (.str (hex (Crypto.xPublic draws.callerKey))) := by
      rw [← (hoffer o rfl).channelKey]
      simp [TaskArgs.transcript, callerPossessionTranscript, Dict.get?_cons]
    have hcallee : Dict.get? (args.transcript leaf challenge peer sealedPayload proof o) (lit "callee_channel_key") =
        some (.str (hex (Crypto.xPublic key))) := by
      rw [← hkey]
      simp [TaskArgs.transcript, callerPossessionTranscript, Dict.get?_cons]
    obtain ⟨p, hp, hversion, hmac, hverify⟩ := possession_verifies hc draws.callerKey key hcaller hcallee (hcanonical o rfl)
    refine ⟨some p, ?_, p, rfl, hversion, hmac, hverify⟩
    rw [optional, hkey, hp]
    rfl

/-- **The request of an honest call is built**, and holds what the node will check. -/
theorem exists_buildRequest (hc : Crypto.Correct) {args : TaskArgs} {leaf : DelegationCredential} (ha : args.Honest leaf)
    (hleaf : Clean leaf.credentialId ∧ Clean leaf.subject) {draws : Draws} (hn : draws.sealNonce.length = 12)
    {hello : Handshake} {key : Crypto.XKey} (hkey : hello.peer.publicKey = hex (Crypto.xPublic key)) {challenge : Str}
    (hchallenge : hello.challenge = some challenge) (hclean : Clean challenge) {offer : Option ChannelOffer}
    (hoffers : args.offers draws challenge = .ok offer)
    (hoffer : ∀ o ∈ offer, OfferFor (hex (Crypto.xPublic draws.callerKey)) challenge roleCaller o) :
    ∃ request, buildRequest args hello draws = .ok request ∧ Presents args key leaf challenge offer request := by
  have hpeer : Clean hello.peer.publicKey := by
    rw [hkey]
    exact clean_hex _
  have hcaller : ∀ o ∈ offer, Clean o.channelPublicKey := by
    intro o ho
    rw [(hoffer o ho).channelKey]
    exact clean_hex _
  obtain ⟨sealedPayload, hsealed, hpayload⟩ := exists_sealed hc hkey hn args.payload
  have hbody : Canonical (proofBody ((args.holderParams hello.peer sealedPayload offer).fields leaf challenge)) := by
    refine canonical_proofBody_iff.mpr ⟨hpeer, hclean, hleaf.1, hleaf.2, ha.capability.1, ha.recordId.1, fun s hs => ?_,
      ha.parentRecordHash⟩
    obtain ⟨o, ho, rfl⟩ := Option.mem_map.mp hs
    exact hcaller o ho
  obtain ⟨proof, hproof, hsame, hsig, hsigClean, hsigned⟩ := exists_holderProof hc ha.holds hbody
  have htranscript : ∀ o ∈ offer, Canonical (.obj (args.transcript leaf challenge hello.peer sealedPayload proof o)) :=
    fun o ho => canonical_transcript_iff.mpr ⟨hclean, hpeer, hcaller o ho, hleaf.1, hleaf.2, ha.capability.1,
      ha.recordId.1, ha.parentRecordHash, by simpa using hsigClean⟩
  obtain ⟨possession, hpossession, hverify⟩ := exists_possession hc hkey hoffer htranscript
  rw [TaskArgs.offers] at hoffers
  let request : PeerRequest :=
    { chain := args.chain
      requestedCapability := args.requestedCapability
      recordId := args.recordId
      sealedPayload := sealedPayload
      parentRecordHash := args.parentRecordHash
      callerOffer := offer
      holderProof := some proof
      callerPossession := possession }
  refine ⟨request, ?_, ?_⟩
  · simp only [buildRequest, hchallenge, hsealed, hoffers, chainLeaf_ok_iff.mpr ha.leaf_eq, ok_bind, hproof, hpossession]
    rfl
  · refine ⟨rfl, rfl, rfl, rfl, rfl, hpayload, ⟨proof, rfl, hsame, hsig, ?_⟩, ?_⟩
    · rw [TaskArgs.holderParams, hkey] at hsigned
      exact hsigned
    · cases offer with
      | none => exact hverify
      | some o =>
        obtain ⟨p, hp, hversion, hmac, hv⟩ := hverify
        refine ⟨p, hp, hversion, hmac, ?_⟩
        have hsameTranscript : requestTranscript request leaf o key =
            args.transcript leaf challenge hello.peer sealedPayload proof o := by
          rw [requestTranscript, TaskArgs.transcript, (hoffer o rfl).nonce, (hoffer o rfl).reportKey,
            (hoffer o rfl).channelKey, hkey]
          rfl
        rw [← hsameTranscript] at hv
        exact hv

/-! ## The callee -/

theorem wireValid_of_presents {args : TaskArgs} {leaf : DelegationCredential} (ha : args.Honest leaf)
    {key : Crypto.XKey} {challenge : Str} (hne : challenge ≠ []) {offer : Option ChannelOffer}
    (hoffer : ∀ o ∈ offer, o.WireValid) {request : PeerRequest} (hr : Presents args key leaf challenge offer request) :
    request.WireValid where
  chain := hr.chain ▸ ha.wire
  requestedCapability := hr.capability ▸ ha.capability.2
  recordId := hr.recordId ▸ ha.recordId.2
  sealedPayload := by
    have hpayload := hr.payload
    cases hp : args.payload with
    | none =>
      rw [hp, SealedFor] at hpayload
      simp [hpayload]
    | some payload =>
      rw [hp] at hpayload
      obtain ⟨blob, hblob, hblobNe, _⟩ := hpayload
      simpa [hblob] using hblobNe
  callerOffer := hr.callerOffer ▸ hoffer
  holderProof := by
    obtain ⟨proof, hproof, rfl, hsig, _⟩ := hr.holderProof
    rintro _ h
    cases hproof.symm.trans h
    exact ⟨hne, hsig⟩
  callerPossession := by
    have hpossession := hr.possession
    intro p hp
    cases offer with
    | none => cases hpossession.symm.trans hp
    | some o =>
      obtain ⟨q, hq, hversion, hmac, _⟩ := hpossession
      cases hq.symm.trans hp
      exact ⟨hversion, hmac⟩

omit [Crypto] in
/-- The message of a request parses back to it. -/
theorem parse_taskMessage {request : PeerRequest} (hr : request.WireValid) (hchain : request.chain ≠ []) :
    parsePeerRequest (taskMessage request).items = .ok (some request) := by
  refine (parse_attach_iff (m := ⟨[], by simp [Dict.keys]⟩) hr (attach_empty request)).mpr ⟨hchain, ?_⟩
  rintro ⟨_, _, _, h, _⟩
  cases h

/-- The node takes a caller that offers this. -/
def PeerNode.Takes (node : PeerNode) : Option ChannelOffer → Prop
  | none => node.requireCallerAttestation = requireNone
  | some offer => VerifierAccepts node.callerVerifier offer ∧
      (node.requireCallerAttestation = requireHardware → offer.report.platform ≠ softwareOnly)

omit [Interp] [Crypto] in
/-- What is recorded of a caller that offers this. -/
def attestationOf : Option ChannelOffer → CallerAttestation
  | none => .notOffered
  | some offer => if offer.report.platform = softwareOnly then .softwareOnly else .hardware

/-- The appraisal of an honest caller. -/
theorem appraise_of_presents {node : PeerNode} {args : TaskArgs} {leaf : DelegationCredential} {challenge : Str}
    {offer : Option ChannelOffer} {request : PeerRequest}
    (hr : Presents args node.privateKey leaf challenge offer request) {caller : Str}
    (hoffer : ∀ o ∈ offer, OfferFor caller challenge roleCaller o) (htakes : node.Takes offer) {now : Int}
    (hnow : verifyChallenge node.challengeSecret challenge now = .ok ()) (revocations : Option RevocationSnapshot)
    (effective : Finset Str) :
    appraiseCallerRuntime request leaf effective (node.config revocations) now = .ok (attestationOf offer) := by
  refine appraiseCallerRuntime_ok_iff.mpr ⟨node.requirement, ?_⟩
  have hpossession := hr.possession
  rw [hr.callerOffer]
  cases offer with
  | none => exact ⟨hpossession, htakes, rfl⟩
  | some o =>
    have ho := hoffer o rfl
    obtain ⟨hverifier, hhardware⟩ := htakes
    obtain ⟨p, hp, _, _, hverify⟩ := hpossession
    obtain ⟨peer, hpeer, _, hassurance⟩ := exists_verifyOffer ho hverifier (fun h : false = true => nomatch h)
    have hcaller : appraiseCaller o node.challengeSecret node.callerVerifier now = .ok peer := by
      rw [appraiseCaller_ok_iff, ho.nonce]
      exact ⟨hnow, hpeer⟩
    refine ⟨peer, appraiseOffer_ok_iff.mpr ⟨_, _, rfl, rfl, hcaller, hp ▸ hverify⟩, ?_, ?_⟩
    · by_cases hplatform : o.report.platform = softwareOnly <;> simp [attestationOf, hassurance, hplatform]
    · intro hrequired
      simp [attestationOf, hhardware hrequired]

/-- **The node accepts what an honest caller presents.** -/
theorem accepted_of_presents {node : PeerNode} {args : TaskArgs} {leaf : DelegationCredential} (ha : args.Honest leaf)
    {challenge : Str} {offer : Option ChannelOffer} {request : PeerRequest}
    (hr : Presents args node.privateKey leaf challenge offer request) {caller : Str}
    (hoffer : ∀ o ∈ offer, OfferFor caller challenge roleCaller o) (htakes : node.Takes offer) {clock : Readings}
    {revocations : Option RevocationSnapshot} {revocation : RevocationStatus}
    (hchain : verifyChain args.chain node.maxDepth node.trustedRootIssuers none clock.chain revocations
      node.maxRevocationStaleness = .ok revocation)
    {effective : Finset Str} (hpolicy : node.policy leaf.scope = .ok effective)
    (hcapability : args.requestedCapability ∈ effective)
    (hholder : verifyChallenge node.challengeSecret challenge clock.holder = .ok ())
    (happraisal : verifyChallenge node.challengeSecret challenge clock.appraisal = .ok ()) :
    Accepted request (node.config revocations) clock leaf
      { effectiveScope := effective
        grantedCapability := args.requestedCapability
        record := recordFor leaf args.recordId args.parentRecordHash (attestationOf offer)
        payload := args.payload
        callerAttestation := attestationOf offer
        revocation := revocation } where
  leaf_eq := hr.chain ▸ ha.leaf_eq
  chain := hr.chain ▸ hchain
  holder := by
    obtain ⟨proof, hproof, rfl, _, hsigned⟩ := hr.holderProof
    exact fun _ => verifyCallerHoldsLeaf_ok_iff.mpr ⟨proof, _, _, hproof, rfl, rfl,
      verifyHolderProof_ok_iff.mpr ⟨hholder, hsigned⟩⟩
  effective := hpolicy
  appraisal := appraise_of_presents hr hoffer htakes happraisal revocations effective
  granted := hr.capability.symm
  permitted := hr.capability ▸ hcapability
  record := by rw [hr.recordId, hr.parentRecordHash]
  payload := by
    have hpayload := hr.payload
    cases hp : args.payload with
    | none =>
      rw [hp, SealedFor] at hpayload
      simp [hpayload]
    | some payload =>
      rw [hp] at hpayload
      obtain ⟨blob, hblob, _, hopen⟩ := hpayload
      rw [hblob]
      exact ⟨node.privateKey, payload, rfl, hopen, rfl⟩

/-! ## The call -/

/-- A call without an authenticated response posts the message it built. -/
theorem started_of_build {server : Server} (hscheme : server.scheme ∈ allowedSchemes) {args : TaskArgs} {draws : Draws}
    {hello : Handshake}
    (hhello : (handshake server args.verifier args.requireHardware (hex draws.nonce)).result = .ok hello)
    {request : PeerRequest} (hrequest : buildRequest args hello draws = .ok request)
    (hlegacy : args.requireAuthenticatedResponse = false) :
    .started (.task (taskMessage request).items) ∈ (sendTask server args draws).trace := by
  have hallowed : requireHttpUrl server.scheme = .ok () := if_neg (not_not.mpr hscheme)
  have hposted : ∀ answer : Result (Int × Json), .started (.task (taskMessage request).items) ∈
      (Run.exchange (.task (taskMessage request).items) answer).trace := by
    intro answer
    cases answer <;> simp [Run.exchange, Traced.step, Except.mapError]
  rw [sendTask, Traced.mem_trace_bind]
  refine .inr ⟨hello, hhello, Traced.mem_trace_bind.mpr (.inr ⟨request, by rw [Run.of_result, hrequest]; rfl, ?_⟩)⟩
  simp only [hlegacy, Bool.false_eq_true, if_false, sendLegacy]
  refine Traced.mem_trace_bind.mpr (.inr ⟨(), by rw [Run.of_result, hallowed]; rfl, ?_⟩)
  exact Traced.mem_trace_bind.mpr (.inl (hposted _))

theorem offers_none_iff {args : TaskArgs} {draws : Draws} {challenge : Str} {offer : Option ChannelOffer}
    (h : args.offers draws challenge = .ok offer) : offer = none ↔ args.callerProvider = none := by
  rw [TaskArgs.offers] at h
  cases hp : args.callerProvider with
  | none =>
    rw [hp] at h
    cases h
    simp
  | some provider =>
    rw [hp, optional, bind_ok_iff] at h
    obtain ⟨o, _, h⟩ := h
    cases h
    simp

theorem offerFor_of_offers {args : TaskArgs} (hp : ∀ provider ∈ args.callerProvider, provider.Faithful) {draws : Draws}
    {challenge : Str} {offer : Option ChannelOffer} (h : args.offers draws challenge = .ok offer) :
    ∀ o ∈ offer, OfferFor (hex (Crypto.xPublic draws.callerKey)) challenge roleCaller o := by
  intro o ho
  rw [TaskArgs.offers] at h
  cases hprovider : args.callerProvider with
  | none =>
    rw [hprovider] at h
    cases h
    cases ho
  | some provider =>
    rw [hprovider, optional, bind_ok_iff] at h
    obtain ⟨o', ho', h⟩ := h
    cases h
    cases ho
    exact offerFor_of_attest (hp provider hprovider) (by decide) ho'

/-- **Honest calls succeed.** With primitives that work, a node whose report the caller's verifier accepts, a chain the
node accepts and whose leaf key the caller holds, and a caller the node takes, the message that `sendTask` makes of the
node's own handshake is accepted while the challenge is valid, and the result is the one that was asked for. -/
theorem honest_call_accepted (hc : Crypto.Correct) (node : PeerNode) (server : Server) (args : TaskArgs) (draws : Draws)
    (leaf : DelegationCredential) (issued : Int) (random : Bytes) (calleeOffer : ChannelOffer) (challenge : Str)
    (callerOffer : Option ChannelOffer) (clock : Readings) (revocations : Option RevocationSnapshot)
    (revocation : RevocationStatus) (effective : Finset Str) (hn : draws.sealNonce.length = 12)
    -- the node and its answer to the handshake
    (hserver : AnswersFor server node (hex draws.nonce) issued random calleeOffer challenge)
    (hprovider : node.provider.Faithful) (hverifier : VerifierAccepts args.verifier calleeOffer)
    (hhardware : args.requireHardware = true → calleeOffer.report.platform ≠ softwareOnly)
    -- the caller and what it offers
    (hargs : args.Honest leaf) (hcallerProvider : ∀ provider ∈ args.callerProvider, provider.Faithful)
    (hoffers : args.offers draws challenge = .ok callerOffer) (htakes : node.Takes callerOffer)
    -- what the node accepts, before the challenge expires
    (hsource : node.revocations = .ok revocations)
    (hchain : verifyChain args.chain node.maxDepth node.trustedRootIssuers none clock.chain revocations
      node.maxRevocationStaleness = .ok revocation)
    (hpolicy : node.policy leaf.scope = .ok effective)
    (hcapability : args.requestedCapability ∈ effective)
    (hholder : clock.holder < issued + node.challengeTtlSeconds)
    (happraisal : clock.appraisal < issued + node.challengeTtlSeconds) :
    ∃ hello request res,
      (handshake server args.verifier args.requireHardware (hex draws.nonce)).result = .ok hello ∧
      buildRequest args hello draws = .ok request ∧
      (∀ e, e.IsTask → .started e ∈ (sendTask server args draws).trace → SentAs args draws hello.peer request e) ∧
      (args.requireAuthenticatedResponse = false →
        .started (.task (taskMessage request).items) ∈ (sendTask server args draws).trace) ∧
      node.handle (taskMessage request).items clock = .ok res ∧
      res.payload = args.payload ∧ res.grantedCapability = args.requestedCapability ∧
      res.record = recordFor leaf args.recordId args.parentRecordHash (attestationOf callerOffer) ∧
      res.callerAttestation = attestationOf callerOffer ∧ (callerOffer = none ↔ args.callerProvider = none) := by
  obtain ⟨hclean, hne⟩ := issueChallenge_clean hserver.challenged
  have hoffer := offerFor_of_offers hcallerProvider hoffers
  have hvalid : ∀ now < issued + node.challengeTtlSeconds, verifyChallenge node.challengeSecret challenge now = .ok () :=
    fun now hnow => verifyChallenge_of_issue hc.hmac hserver.challenged hnow
  obtain ⟨hello, hhello, hkey, hchallenge⟩ := exists_handshake hserver hprovider hverifier hhardware
  obtain ⟨request, hrequest, hpresents⟩ := exists_buildRequest hc hargs (clean_leaf hchain hargs.leaf_eq) hn hkey
    hchallenge hclean hoffers hoffer
  have haccepted := accepted_of_presents hargs hpresents hoffer htakes hchain hpolicy hcapability (hvalid _ hholder)
    (hvalid _ happraisal)
  have hnonempty : request.chain ≠ [] := by
    intro he
    have := haccepted.leaf_eq
    rw [he] at this
    cases this
  have hparse := parse_taskMessage (wireValid_of_presents hargs hne (fun o ho => (hoffer o ho).wire) hpresents) hnonempty
  have hhandle := handlePeerRequest_ok_iff.mpr ⟨leaf, haccepted⟩
  have hanswer : node.handle (taskMessage request).items clock =
      (handlePeerRequest request (node.config revocations) clock).result := by
    simp only [PeerNode.handle, hparse, ok_bind, PeerNode.serve, hsource]
  refine ⟨hello, request, _, hhello, hrequest, fun e he hstarted => ?_, started_of_build hserver.scheme hhello hrequest,
    hanswer.trans hhandle, rfl, rfl, rfl, rfl, offers_none_iff hoffers⟩
  obtain ⟨hello', request', hhello', hrequest', hsent⟩ := sendTask_started he hstarted
  cases hhello.symm.trans hhello'
  cases hrequest.symm.trans hrequest'
  exact hsent

end

/-! ## A call in the toy model -/

theorem Crypto.agreed_correct : @Crypto.Correct Crypto.agreed := by
  let _ := Crypto.agreed
  have hexchange : ∀ a b : UInt8, Crypto.exchange a (Crypto.xPublic b) = .ok (List.replicate 32 (b + a)) := by
    intro a b
    exact (if_pos List.length_replicate).trans (congrArg _ List.map_replicate)
  exact
    { agreement := fun a b => ⟨_, hexchange a b, (hexchange b a).trans (by rw [UInt8.add_comm])⟩
      xPublic := fun _ => List.length_replicate
      signature := fun key msg => ⟨if_pos List.length_replicate, decide_eq_true ⟨List.length_replicate, rfl⟩,
        List.append_ne_nil_of_left_ne_nil (by simp) _⟩
      hmac := fun _ _ => List.length_replicate
      hkdf := fun _ _ _ => List.length_replicate
      aead := fun _ _ _ _ _ _ => rfl }

/-- A node that lets its peers read. -/
def agreedNode : @PeerNode Interp.ascii Crypto.agreed :=
  let _ := Interp.ascii
  let _ := Crypto.agreed
  { policy := localPolicy {lit "read"}
    privateKey := (5 : UInt8)
    challengeSecret := []
    trustedRootIssuers := {readGrant.issuer}
    requirement := requireNone_mem
    appraisable := appraisable_requireNone }

theorem readArgs_honest : @TaskArgs.Honest Crypto.agreed readArgs wireGrant := by
  let _ := Crypto.agreed
  exact
    { wire := plainRequest_wireValid.chain
      leaf_eq := rfl
      holds := rfl
      capability := ⟨clean_lit _, by decide⟩
      recordId := ⟨clean_lit _, by decide⟩
      parentRecordHash := by
        rintro h ⟨⟩ }

theorem verifyChain_wireGrant :
    let _ := Interp.ascii
    let _ := Crypto.agreed
    ∃ revocation, verifyChain readArgs.chain agreedNode.maxDepth agreedNode.trustedRootIssuers none toyReadings.chain
      none agreedNode.maxRevocationStaleness = .ok revocation := by
  intro _ _
  have hsigned : wireGrant.Signed := wireGrant_signed
  exact exists_verifyChain_iff.mpr ⟨by simp, by simp [agreedNode], ChainAccepted.single hsigned rfl rfl
    (by simp [DelegationCredential.InWindow, wireGrant, readGrant])⟩

theorem honest_call_wireGrant :
    let _ := Interp.ascii
    let _ := Crypto.agreed
    ∃ challenge hello request res,
      (handshake (softwareServer challenge) none false (hex toyDraws.nonce)).result = .ok hello ∧
      buildRequest readArgs hello toyDraws = .ok request ∧
      .started (.task (taskMessage request).items) ∈ (sendTask (softwareServer challenge) readArgs toyDraws).trace ∧
      agreedNode.handle (taskMessage request).items toyReadings = .ok res ∧
      res.payload = some [7] ∧ res.callerAttestation = .softwareOnly := by
  intro _ _
  have hissued : (agreedNode.issueChallenge 0 [1]).isOk = true := by decide +kernel
  obtain ⟨challenge, hchallenge⟩ := exists_of_isOk hissued
  obtain ⟨revocation, hrevocation⟩ := verifyChain_wireGrant
  have hserver : AnswersFor (softwareServer challenge) agreedNode (hex toyDraws.nonce) 0 [1] _ challenge :=
    ⟨List.mem_cons_self, rfl, hchallenge, rfl⟩
  have hprovider : ∀ provider ∈ readArgs.callerProvider, provider.Faithful := by
    rintro _ ⟨⟩
    exact softwareProvider_faithful
  have hrequirement : agreedNode.requireCallerAttestation ≠ requireHardware := by decide
  obtain ⟨hello, request, res, hhello, hrequest, _, hposted, hhandle, hpayload, _, _, hattestation, _⟩ :=
    honest_call_accepted Crypto.agreed_correct agreedNode (softwareServer challenge) readArgs toyDraws wireGrant 0 [1] _
      challenge _ toyReadings none revocation _ rfl hserver softwareProvider_faithful (fun h => absurd rfl h) (by simp [readArgs])
      readArgs_honest hprovider rfl ⟨fun h => absurd rfl h, fun h => absurd h hrequirement⟩ rfl hrevocation rfl (by decide)
      (by decide) (by decide)
  exact ⟨challenge, hello, request, res, hhello, hrequest, hposted rfl, hhandle, hpayload, hattestation⟩

end Ca2a
