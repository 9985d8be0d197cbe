/-
Nobody is taken for hardware by relaying somebody else's attestation.

The honest nodes answer handshakes and call; an adversary drives both, and
what they sign and what MACs they show is all that a `World` keeps. It grows by
steps, in any order. What holds of every world that is reached is
`World.Sound`: a signature is over a binding in the callee's role, or over
one for a channel key that a caller drew and the adversary does not have; and a
MAC was shown by a caller in its own request, is none over a transcript, or is
under a key the adversary can derive.

An appraisal that ends in `hardware` needs both: the role leaves only the
caller's own signatures, so the key of the report is a caller's; and then the
adversary does not reach the key of the proof, so the proof is the caller's
own.
-/
import Ca2a.Binding
import Ca2a.Honest
import Ca2a.ResponseBinding

namespace Ca2a

open Py

/-! ## Hardware -/

/-- What a device answers when it signs. -/
structure Quote where
  measurement : Str
  rawEvidence : Bytes
  quoteSignature : Option Bytes := none
  attestationKeyPem : Option Bytes := none
  attestationKeyChainPem : Option Bytes := none

/-- A platform and its device, which signs a binding or raises. -/
structure Hardware where
  platform : Str
  platformPrefix : Bytes
  quote : (binding : Bytes) → Result Quote

section
variable [Interp] [Crypto]

/-- The report on a quote. -/
def Quote.report (quote : Quote) (platform publicKey nonce role : Str) : AttestationReport where
  platform := platform
  measurement := quote.measurement
  publicKey := publicKey
  nonce := nonce
  rawEvidence := some quote.rawEvidence
  quoteSignature := quote.quoteSignature
  attestationKeyPem := quote.attestationKeyPem
  attestationKeyChainPem := quote.attestationKeyChainPem
  role := role

/-- `attest` of `TpmProvider`, `SevSnpProvider` and `TdxProvider`, on a host that has the device. -/
def Hardware.attest (hw : Hardware) : Provider := fun publicKey nonce role => do
  let binding ← roleBinding hw.platformPrefix role publicKey nonce
  let quote ← hw.quote binding
  .ok (quote.report hw.platform publicKey nonce role)

/-- What a device offers is over the binding of the offer. -/
theorem Hardware.attestChannel_ok {hw : Hardware} {key nonce role : Str} {offer : ChannelOffer}
    (h : attestChannel hw.attest key nonce role = .ok offer) :
    ∃ digest quote, roleBinding hw.platformPrefix role key nonce = .ok digest ∧ hw.quote digest = .ok quote ∧
      offer = ⟨key, quote.report hw.platform key nonce role⟩ := by
  rw [attestChannel, bind_ok_iff] at h
  obtain ⟨report, hreport, h⟩ := h
  split at h
  · cases h
  cases h
  simp only [Hardware.attest, bind_ok_iff, Except.ok.injEq] at hreport
  obtain ⟨digest, hdigest, quote, hquote, rfl⟩ := hreport
  exact ⟨digest, quote, hdigest, hquote, rfl⟩

/-- What is signed for an offer: a binding if the provider has a device, and nothing in software. -/
inductive Mints : Provider → ChannelOffer → List Bytes → Prop
  | hardware {hw : Hardware} {offer : ChannelOffer} {digest : Bytes}
      (h : roleBinding hw.platformPrefix offer.report.role offer.report.publicKey offer.report.nonce = .ok digest) :
      Mints hw.attest offer [digest]
  | software {offer : ChannelOffer} : Mints softwareProvider offer []

/-- What is signed for an offer has its role, its key and its nonce. -/
theorem Mints.binding {provider : Provider} {key nonce role : Str} {offer : ChannelOffer} {minted : List Bytes}
    (h : attestChannel provider key nonce role = .ok offer) (hm : Mints provider offer minted) {digest : Bytes}
    (hd : digest ∈ minted) : ∃ platformPrefix, roleBinding platformPrefix role key nonce = .ok digest := by
  cases hm with
  | software => cases hd
  | @hardware hw _ digest' hdigest =>
    obtain rfl := List.mem_singleton.mp hd
    obtain ⟨_, quote, _, _, rfl⟩ := hw.attestChannel_ok h
    exact ⟨hw.platformPrefix, hdigest⟩

/-! ## The world -/

/-- A call of `send_task`: the peer, as the adversary makes it answer, and what the node draws. -/
structure Call where
  server : Server
  args : TaskArgs
  draws : Draws

/-- The handshake of the call returned. -/
def Call.Greets (call : Call) (hello : Handshake) : Prop :=
  (handshake call.server call.args.verifier call.args.requireHardware (hex call.draws.nonce)).result = .ok hello

/-- The call posts a request, with a proof of possession over the transcript. -/
structure Call.Posts (call : Call) (hello : Handshake) (own : PeerRequest) (transcript : Dict Json) : Prop where
  greets : call.Greets hello
  built : buildRequest call.args hello call.draws = .ok own
  posted : ∃ e, e.IsTask ∧ .started e ∈ (sendTask call.server call.args call.draws).trace
  transcript_eq : ∃ leaf challenge proof offer, chainLeaf call.args.chain = .ok leaf ∧ hello.challenge = some challenge ∧
    own.holderProof = some proof ∧ own.callerOffer = some offer ∧
    transcript = call.args.transcript leaf challenge hello.peer own.sealedPayload proof offer

/-- The MAC of the call's proof of possession. -/
def Call.possession (call : Call) (hello : Handshake) (transcript : Dict Json) : MacEvent :=
  .possession call.draws.callerKey hello.peer.publicKey (hex (Crypto.xPublic call.draws.callerKey)) hello.peer.publicKey
    transcript

/-- What the honest platforms have signed, the MACs that were shown or computed, and the calls so far. -/
structure World where
  signed : List Bytes := []
  macs : List MacEvent := []
  calls : List Call := []

omit [Interp] in
/-- The adversary has no private key for this public key. -/
def KeptFrom (holds : Crypto.XKey → Prop) (key : Crypto.XKey) : Prop :=
  ∀ other, holds other → Crypto.xPublic other ≠ Crypto.xPublic key

omit [Interp] in
/-- The key is derived from no agreement that the adversary takes no part in. -/
def Derivable (holds : Crypto.XKey → Prop) (key : Bytes) : Prop :=
  ∀ salt info before privateKey pub shared, Crypto.exchange privateKey pub = .ok shared →
    key = Crypto.hkdf salt info (before ++ shared) → holds privateKey ∨ ∃ other, holds other ∧ Crypto.xPublic other = pub

/-- One step, with an adversary that has the private keys `holds`. -/
inductive World.Step (holds : Crypto.XKey → Prop) : World → World → Prop
  /-- A node answers a handshake under any nonce. -/
  | handshake {w : World} {node : PeerNode} {nonce : Str} {offer : ChannelOffer} {minted : List Bytes}
      (hoffer : node.offer nonce = .ok offer) (hm : Mints node.provider offer minted) :
      Step holds w { w with signed := minted ++ w.signed }
  /-- A node calls, and mints an offer for its call with a key of its own. -/
  | mint {w : World} {call : Call} {hello : Handshake} {provider : Provider} {challenge : Str} {offer : ChannelOffer}
      {minted : List Bytes} (hhello : call.Greets hello) (hprovider : call.args.callerProvider = some provider)
      (hchallenge : hello.challenge = some challenge)
      (hoffer : offerChannel provider call.draws.callerKey challenge roleCaller = .ok offer)
      (hm : Mints provider offer minted) (hkey : KeptFrom holds call.draws.callerKey) :
      Step holds w { w with signed := minted ++ w.signed, calls := call :: w.calls }
  /-- The call goes on to post its request. -/
  | post {w : World} {call : Call} {hello : Handshake} {own : PeerRequest} {transcript : Dict Json}
      (hcall : call ∈ w.calls) (hposts : call.Posts hello own transcript) :
      Step holds w { w with macs := call.possession hello transcript :: w.macs }
  /-- A node issues a challenge. -/
  | challenge {w : World} (secret : Bytes) (expiry : Int) (rand : Str) :
      Step holds w { w with macs := .challenge secret expiry rand :: w.macs }
  /-- A node authenticates a response. -/
  | finish {w : World} (privateKey : Crypto.XKey) (envelope : JsonDict) (status : Int) (body : JsonDict) :
      Step holds w { w with macs := .finish privateKey envelope status body :: w.macs }
  /-- The adversary computes a MAC under a key it can derive. -/
  | compute {w : World} {key : Bytes} (message : Bytes) (hkey : Derivable holds key) :
      Step holds w { w with macs := .adversary key message :: w.macs }

/-- The worlds a run reaches. -/
inductive World.Reachable (holds : Crypto.XKey → Prop) : World → Prop
  | initial : Reachable holds {}
  | next {w w' : World} (h : Reachable holds w) (hs : World.Step holds w w') : Reachable holds w'

/-! ## The invariant -/

/-- Whom a signature is for: a callee, or a caller whose key the adversary does not have. -/
def SignedFor (holds : Crypto.XKey → Prop) (digest : Bytes) : Prop :=
  (∃ platformPrefix key nonce, roleBinding platformPrefix roleCallee key nonce = .ok digest) ∨
    ∃ platformPrefix key nonce, roleBinding platformPrefix roleCaller (hex (Crypto.xPublic key)) nonce = .ok digest ∧
      KeptFrom holds key

/-- Where a MAC comes from. A proof of possession is from a call that posted it. -/
def MacEvent.From (holds : Crypto.XKey → Prop) (calls : List Call) : MacEvent → Prop
  | .possession privateKey peer caller callee transcript => ∃ call ∈ calls, ∃ hello own,
      call.Posts hello own transcript ∧
      MacEvent.possession privateKey peer caller callee transcript = call.possession hello transcript
  | .adversary key _ => Derivable holds key
  | .challenge _ _ _ | .finish _ _ _ _ => True

structure World.Sound (holds : Crypto.XKey → Prop) (w : World) : Prop where
  signed : ∀ digest ∈ w.signed, SignedFor holds digest
  macs : ∀ e ∈ w.macs, e.From holds w.calls

theorem MacEvent.From.cons {holds : Crypto.XKey → Prop} {calls : List Call} {e : MacEvent} (h : e.From holds calls)
    (call : Call) : e.From holds (call :: calls) := by
  cases e with
  | possession =>
    obtain ⟨call', hcall, h⟩ := h
    exact ⟨call', List.mem_cons_of_mem _ hcall, h⟩
  | adversary | challenge | finish => exact h

/-- One more MAC. -/
theorem World.Sound.shows {holds : Crypto.XKey → Prop} {w : World} (hw : w.Sound holds) {e : MacEvent}
    (he : e.From holds w.calls) : World.Sound holds { w with macs := e :: w.macs } where
  signed := hw.signed
  macs := List.forall_mem_cons.mpr ⟨he, hw.macs⟩

/-- **What one step preserves.** -/
theorem World.Sound.step {holds : Crypto.XKey → Prop} {w w' : World} (hw : w.Sound holds) (hs : World.Step holds w w') :
    w'.Sound holds := by
  cases hs with
  | @handshake node nonce offer minted hoffer hm =>
    refine ⟨List.forall_mem_append.mpr ⟨fun digest hd => ?_, hw.signed⟩, hw.macs⟩
    obtain ⟨platformPrefix, h⟩ := hm.binding hoffer hd
    exact .inl ⟨platformPrefix, _, _, h⟩
  | @mint call hello provider challenge offer minted hhello hprovider hchallenge hoffer hm hkey =>
    refine ⟨List.forall_mem_append.mpr ⟨fun digest hd => ?_, hw.signed⟩, fun e he => (hw.macs e he).cons call⟩
    obtain ⟨platformPrefix, h⟩ := hm.binding hoffer hd
    exact .inr ⟨platformPrefix, _, _, h, hkey⟩
  | @post call hello own transcript hcall hposts => exact hw.shows ⟨call, hcall, hello, own, hposts, rfl⟩
  | challenge secret expiry rand => exact hw.shows trivial
  | finish privateKey envelope status body => exact hw.shows trivial
  | compute message hkey => exact hw.shows hkey

/-- **Every world that is reached is sound.** -/
theorem World.Reachable.sound {holds : Crypto.XKey → Prop} {w : World} (h : World.Reachable holds w) : w.Sound holds := by
  induction h with
  | initial => exact ⟨by simp, by simp⟩
  | next _ hs ih => exact ih.step hs

/-! ## A proof of possession -/

omit [Interp] in
theorem wf_callerPossessionTranscript (challenge callee caller credentialId subject capability recordId : Str)
    (sealedPayload : Option Bytes) (parent signature : Option Str) :
    (Json.obj (callerPossessionTranscript challenge callee caller credentialId subject capability recordId sealedPayload
      parent signature)).WF := by
  simp [callerPossessionTranscript, payloadSha256, Dict.keys]

/-- Transcripts with the same canonical form are the same. -/
theorem transcript_eq_of_canonicalize
    {challenge callee caller credentialId subject capability recordId challenge' callee' caller' credentialId' subject'
      capability' recordId' : Str} {sealedPayload sealedPayload' : Option Bytes}
    {parent signature parent' signature' : Option Str} {raw : Bytes}
    (h : canonicalize (ε := CA2AError) (.obj (callerPossessionTranscript challenge callee caller credentialId subject
      capability recordId sealedPayload parent signature)) = .ok raw)
    (h' : canonicalize (ε := CA2AError) (.obj (callerPossessionTranscript challenge' callee' caller' credentialId' subject'
      capability' recordId' sealedPayload' parent' signature')) = .ok raw) :
    challenge = challenge' ∧ callee = callee' ∧
    callerPossessionTranscript challenge callee caller credentialId subject capability recordId sealedPayload parent
      signature = callerPossessionTranscript challenge' callee' caller' credentialId' subject' capability' recordId'
        sealedPayload' parent' signature' := by
  have hf := fields_of_canonicalize (wf_callerPossessionTranscript ..) (wf_callerPossessionTranscript ..) h h'
  simp only [callerPossessionTranscript, payloadSha256] at hf
  have hchal := hf (lit "challenge")
  have hcallee := hf (lit "callee_channel_key")
  have hcaller := hf (lit "caller_channel_key")
  have hid := hf (lit "credential_id")
  have hsub := hf (lit "subject")
  have hcap := hf (lit "requested_capability")
  have hrec := hf (lit "record_id")
  have hpay := hf (lit "payload_sha256")
  have hpar := hf (lit "parent_record_hash")
  have hsig := hf (lit "holder_proof_signature")
  simp [Dict.get?_cons] at hchal hcallee hcaller hid hsub hcap hrec hpay hpar hsig
  refine ⟨hchal, hcallee, ?_⟩
  simp only [callerPossessionTranscript, payloadSha256, hchal, hcallee, hcaller, hid, hsub, hcap, hrec, hpay, hpar, hsig]

theorem possessionMac_ok {privateKey : Crypto.XKey} {peer caller callee mac : Str} {transcript : Dict Json}
    (h : possessionMac privateKey peer caller callee transcript = .ok mac) :
    ∃ key message, (MacEvent.possession privateKey peer caller callee transcript).Computes key message ∧
      mac = hex (Crypto.hmac key message) := by
  simp only [possessionMac, bind_ok_iff, Except.ok.injEq] at h
  obtain ⟨key, hkey, raw, hraw, rfl⟩ := h
  exact ⟨key, _, ⟨hkey, raw, hraw, rfl⟩, rfl⟩

/-- One event computes one MAC. -/
theorem MacEvent.Computes.unique {privateKey : Crypto.XKey} {peer caller callee : Str} {transcript : Dict Json}
    {key key' message message' : Bytes}
    (h : (MacEvent.possession privateKey peer caller callee transcript).Computes key message)
    (h' : (MacEvent.possession privateKey peer caller callee transcript).Computes key' message') :
    key = key' ∧ message = message' := by
  obtain ⟨hkey, raw, hraw, rfl⟩ := h
  obtain ⟨hkey', raw', hraw', rfl⟩ := h'
  cases hkey.symm.trans hkey'
  cases hraw.symm.trans hraw'
  exact ⟨rfl, rfl⟩

/-- The MAC a callee checks a proof of possession against. -/
def checkedMac (request : PeerRequest) (leaf : DelegationCredential) (offer : ChannelOffer) (key : Crypto.XKey) : MacEvent :=
  .possession key offer.report.publicKey offer.report.publicKey (hex (Crypto.xPublic key))
    (requestTranscript request leaf offer key)

/-- A proof that verifies is the MAC it is checked against. -/
theorem mac_of_verifyCallerPossession {request : PeerRequest} {leaf : DelegationCredential} {offer : ChannelOffer}
    {key : Crypto.XKey} {possession : Option CallerPossession}
    (h : verifyCallerPossession possession key (requestTranscript request leaf offer key) = .ok ()) :
    ∃ k message, (checkedMac request leaf offer key).Computes k message ∧
      possession = some ⟨callerOfferVersion, hex (Crypto.hmac k message)⟩ := by
  rw [verifyCallerPossession_ok_iff (requestTranscript_callee _ _ _ _) (requestTranscript_caller _ _ _ _)] at h
  obtain ⟨mac, hmac, rfl⟩ := h
  obtain ⟨k, message, hcomputes, rfl⟩ := possessionMac_ok hmac
  exact ⟨k, message, hcomputes, rfl⟩

/-- The proof of possession of a request that is posted. -/
theorem Call.Posts.mac {call : Call} {hello : Handshake} {own : PeerRequest} {transcript : Dict Json}
    (h : call.Posts hello own transcript) :
    ∃ key message, (call.possession hello transcript).Computes key message ∧
      own.callerPossession = some ⟨callerOfferVersion, hex (Crypto.hmac key message)⟩ := by
  obtain ⟨leaf, challenge, proof, offer, hleaf, hchallenge, hproof, hoffer, rfl⟩ := h.transcript_eq
  obtain ⟨challenge', hchallenge', hbound⟩ := buildRequest_ok h.built
  cases hchallenge.symm.trans hchallenge'
  obtain ⟨leaf', proof', hleaf', hproof', _, _, hproofs⟩ := hbound.proofs
  cases (chainLeaf_ok_iff.mp hleaf).symm.trans hleaf'
  cases hproof.symm.trans hproof'
  cases hprovider : call.args.callerProvider with
  | none =>
    rw [hprovider] at hproofs
    rw [hproofs.1] at hoffer
    cases hoffer
  | some provider =>
    rw [hprovider] at hproofs
    obtain ⟨offer', possession, hoffer', hpossession, _, _, hprove⟩ := hproofs
    cases hoffer.symm.trans hoffer'
    simp only [proveCallerPossession] at hprove
    split at hprove
    · cases hprove
    split at hprove
    · cases hprove
    rw [bind_ok_iff] at hprove
    obtain ⟨mac, hmac, hprove⟩ := hprove
    cases hprove
    obtain ⟨key, message, hcomputes, rfl⟩ := possessionMac_ok hmac
    exact ⟨key, message, hcomputes, hpossession⟩

/-! ## The appraisal -/

/-- The verifier takes the report only as evidence that an honest platform signed for its role, its key and the nonce. -/
def Verifier.SoundFor (signed : List Bytes) (verify : Verifier) (report : AttestationReport) : Prop :=
  ∀ nonce measurement, verify report nonce = .ok measurement →
    ∃ platformPrefix, ∃ digest ∈ signed, roleBinding platformPrefix report.role report.publicKey nonce = .ok digest

/-- HMAC is ideal for the proof of the request: if it is the MAC it is checked against, somebody has computed it. -/
def IdealFor (macs : List MacEvent) (request : PeerRequest) (leaf : DelegationCredential) (offer : ChannelOffer)
    (key : Crypto.XKey) : Prop :=
  ∀ p ∈ request.callerPossession, ∀ k message, (checkedMac request leaf offer key).Computes k message →
    p.mac = hex (Crypto.hmac k message) → ∃ e ∈ macs, e.Computes k message

/-- **Role separation**: what is signed for a report in the caller's role is for a key that a caller drew. -/
theorem World.Sound.caller_key (hsha : Function.Injective Crypto.sha256) {holds : Crypto.XKey → Prop} {w : World}
    (hw : w.Sound holds) {platformPrefix digest : Bytes} {publicKey nonce : Str} (hd : digest ∈ w.signed)
    (h : roleBinding platformPrefix roleCaller publicKey nonce = .ok digest) :
    ∃ key, publicKey = hex (Crypto.xPublic key) ∧ KeptFrom holds key := by
  rcases hw.signed digest hd with ⟨_, _, _, h'⟩ | ⟨_, key, _, h', hkey⟩
  · exact absurd (roleBinding_inj hsha h h').1 (by decide)
  · exact ⟨key, (roleBinding_inj hsha h h').2.1, hkey⟩

/-- The key of a proof of possession is out of reach of who has neither private key. -/
theorem not_derivable_of_checked {holds : Crypto.XKey → Prop} {key caller : Crypto.XKey} (hkey : KeptFrom holds key)
    (hcaller : KeptFrom holds caller) {callerChannelKey calleeChannelKey : Str} {k : Bytes}
    (h : possessionKey key (hex (Crypto.xPublic caller)) callerChannelKey calleeChannelKey = .ok k) :
    ¬ Derivable holds k := by
  rw [possessionKey, bind_ok_iff] at h
  obtain ⟨ikm, hikm, h⟩ := h
  rw [catchBuiltin_ok_iff (by simp)] at hikm
  simp only [bind_ok_iff, Except.ok.injEq, fromHex_hex, exists_eq_left'] at hikm
  obtain ⟨shared, hshared, before, _, after, _, rfl⟩ := hikm
  intro hderivable
  rcases hderivable _ _ _ _ _ _ (exchangeKey_ok_iff.mp hshared) (Except.ok.inj h).symm with hholds | ⟨other, hother, heq⟩
  · exact hkey key hholds rfl
  · exact hcaller other hother heq

/-- **Whose a checked MAC is.** Of all that was shown or computed, only a caller's own request has the MAC over the
transcript. -/
theorem World.Sound.own_request {holds : Crypto.XKey → Prop} {w : World} (hw : w.Sound holds) {request : PeerRequest}
    {leaf : DelegationCredential} {offer : ChannelOffer} {key : Crypto.XKey} {k message : Bytes}
    (hreach : ¬ Derivable holds k) (hc : (checkedMac request leaf offer key).Computes k message) {e : MacEvent}
    (he : e ∈ w.macs) (h : e.Computes k message) :
    ∃ call ∈ w.calls, ∃ hello own, call.Posts hello own (requestTranscript request leaf offer key) ∧
      own.callerPossession = some ⟨callerOfferVersion, hex (Crypto.hmac k message)⟩ ∧
      hello.peer.publicKey = hex (Crypto.xPublic key) ∧ hello.challenge = some offer.report.nonce := by
  obtain ⟨_, raw, hraw, rfl⟩ := hc
  have hfrom := hw.macs e he
  cases e with
  | possession privateKey peer caller callee transcript =>
    obtain ⟨call, hcall, hello, own, hposts, heq⟩ := hfrom
    rw [heq] at h
    obtain ⟨hkey, raw', hraw', hmessage⟩ := h
    obtain rfl : raw = raw' := List.append_cancel_left hmessage
    obtain ⟨k', message', hcomputes, hpossession⟩ := hposts.mac
    obtain ⟨rfl, rfl⟩ := hcomputes.unique ⟨hkey, raw, hraw', rfl⟩
    obtain ⟨leaf', challenge, proof, offer', _, hchallenge, _, _, htranscript⟩ := hposts.transcript_eq
    rw [htranscript] at hraw'
    obtain ⟨hnonce, hcallee, hsame⟩ := transcript_eq_of_canonicalize hraw' hraw
    have hsent : transcript = requestTranscript request leaf offer key := htranscript.trans hsame
    exact ⟨call, hcall, hello, own, hsent ▸ hposts, hpossession, hcallee, hnonce ▸ hchallenge⟩
  | adversary key' message' =>
    obtain ⟨rfl, _⟩ := h
    exact absurd hfrom hreach
  | challenge secret expiry rand =>
    obtain ⟨_, hmessage⟩ := h
    rw [List.append_assoc, List.append_assoc] at hmessage
    have := head_of_challenge hmessage
    simp [asciiBytes] at this
  | finish privateKey envelope status body =>
    obtain ⟨_, _, raw', _, _, _, _, hmessage⟩ := h
    exact absurd hmessage.symm (macMessage_ne_possession raw' raw)

/-- **No relay of an attestation.** In every world a run reaches, if the callee's verifier takes the report only as
evidence an honest platform signed, the MAC of the request's proof is ideal and the adversary does not have the callee's
key, an appraisal ends in `hardware` only for a request with the transcript and the MAC of a caller's own request, made for
the channel key of this callee, under a challenge that is valid here and now. -/
theorem attestation_not_relayed (hsha : Function.Injective Crypto.sha256) (holds : Crypto.XKey → Prop) (w : World)
    (hw : World.Reachable holds w) (request : PeerRequest) (leaf : DelegationCredential) (effective : Finset Str)
    (config : PeerConfig) (now : Int)
    (hverifier : ∀ offer ∈ request.callerOffer, ∀ verify ∈ config.callerVerifier, verify.SoundFor w.signed offer.report)
    (hideal : ∀ offer ∈ request.callerOffer, ∀ key ∈ config.enclavePrivateKey, IdealFor w.macs request leaf offer key)
    (hcallee : ∀ key ∈ config.enclavePrivateKey, KeptFrom holds key)
    (h : appraiseCallerRuntime request leaf effective config now = .ok .hardware) :
    ∃ offer key secret, request.callerOffer = some offer ∧ config.enclavePrivateKey = some key ∧
      config.challengeSecret = some secret ∧ verifyChallenge secret offer.report.nonce now = .ok () ∧
      ∃ call ∈ w.calls, ∃ hello own, call.Posts hello own (requestTranscript request leaf offer key) ∧
        own.callerPossession = request.callerPossession ∧ hello.peer.publicKey = hex (Crypto.xPublic key) ∧
        hello.challenge = some offer.report.nonce := by
  obtain ⟨_, h⟩ := appraiseCallerRuntime_ok_iff.mp h
  cases hoffer : request.callerOffer with
  | none =>
    rw [hoffer] at h
    cases h.2.2
  | some offer =>
    rw [hoffer] at h
    obtain ⟨peer, happraised, hassurance, _⟩ := h
    obtain ⟨secret, key, hsecret, hkey, happraise, hpossession⟩ := appraiseOffer_ok_iff.mp happraised
    obtain ⟨hchallenge, hverify⟩ := appraiseCaller_ok_iff.mp happraise
    obtain ⟨hrole, _, _, _, hhardware⟩ := verifyOffer_ok_iff.mp hverify
    have hhard : peer.assurance = .hardware := by
      by_contra hne
      rw [if_neg hne] at hassurance
      cases hassurance
    -- a report in software does not appraise as hardware
    split at hhardware
    · rw [hhardware.1] at hhard
      cases hhard
    obtain ⟨_, verify, hverifies, hmeasured⟩ := hhardware
    obtain ⟨platformPrefix, digest, hsigned, hbinding⟩ := hverifier offer hoffer verify hverifies _ _ hmeasured
    rw [hrole] at hbinding
    obtain ⟨caller, hcaller, hkept⟩ := hw.sound.caller_key hsha hsigned hbinding
    obtain ⟨k, message, hcomputes, hmac⟩ := mac_of_verifyCallerPossession hpossession
    have hreach : ¬ Derivable holds k := not_derivable_of_checked (hcallee key hkey) hkept (hcaller ▸ hcomputes.1)
    obtain ⟨e, he, hshown⟩ := hideal offer hoffer key hkey _ hmac k message hcomputes rfl
    obtain ⟨call, hcall, hello, own, hposts, hown, hpeer, hnonce⟩ := hw.sound.own_request hreach hcomputes he hshown
    exact ⟨offer, key, secret, rfl, hkey, hsecret, hchallenge, call, hcall, hello, own, hposts, hown.trans hmac.symm, hpeer,
      hnonce⟩

end

/-! ## A caller with a TPM -/

/-- A TPM whose quote is the binding. -/
def toyTpm : Hardware where
  platform := lit "tpm"
  platformPrefix := tpmPrefix
  quote binding := .ok { measurement := lit "sha256:golden", rawEvidence := binding }

/-- The verifier of its quotes: it derives the binding for the role of the report. -/
def toyVerifier : Verifier :=
  let _ := Interp.ascii
  let _ := Crypto.agreed
  fun report nonce => do
    let binding ← roleBinding tpmPrefix report.role report.publicKey nonce
    if report.rawEvidence ≠ some binding then raise .attestationFailed (lit "quote does not verify")
    else .ok report.measurement

/-- `agreedNode`, for callers with hardware only. -/
def demandingNode : @PeerNode Interp.ascii Crypto.agreed :=
  let _ := Interp.ascii
  let _ := Crypto.agreed
  { agreedNode with
    requireCallerAttestation := requireHardware
    callerVerifier := some toyVerifier
    requirement := by decide
    appraisable := by simp }

/-- The call of `readArgs` from a node with the TPM. -/
def tpmCall : @Call Crypto.agreed :=
  let _ := Interp.ascii
  let _ := Crypto.agreed
  { server := softwareServer toyChallenge
    args := { readArgs with callerProvider := some toyTpm.attest }
    draws := toyDraws }

theorem tpmCall_appraised :
    let _ := Interp.ascii
    let _ := Crypto.agreed
    ∃ hello own, tpmCall.Greets hello ∧ hello.challenge = some toyChallenge ∧
      hello.peer.publicKey = hex (Crypto.xPublic demandingNode.privateKey) ∧
      buildRequest tpmCall.args hello tpmCall.draws = .ok own ∧
      appraiseCallerRuntime own wireGrant {lit "read"} (demandingNode.config none) 0 = .ok .hardware := by
  intro _ _
  have hrun : (do
      let hello ← (handshake tpmCall.server none false (hex toyDraws.nonce)).result.mapError fun _ => .builtin .valueError []
      let own ← buildRequest tpmCall.args hello tpmCall.draws
      let att ← appraiseCallerRuntime own wireGrant {lit "read"} (demandingNode.config none) 0
      if att = .hardware ∧ hello.challenge = some toyChallenge ∧ hello.peer.publicKey = hex (List.replicate 32 5) then
        .ok ()
      else raise .attestationFailed [] : Result Unit).isOk = true := by decide +kernel
  obtain ⟨_, hrun⟩ := exists_of_isOk hrun
  obtain ⟨hello, hhello, hrun⟩ := bind_ok_iff.mp hrun
  obtain ⟨own, hown, hrun⟩ := bind_ok_iff.mp hrun
  obtain ⟨att, happraised, hrun⟩ := bind_ok_iff.mp hrun
  rw [mapError_ok_iff] at hhello
  split at hrun
  · rename_i hmet
    obtain ⟨rfl, hchallenge, hpeer⟩ := hmet
    exact ⟨hello, own, hhello, hchallenge, hpeer, hown, happraised⟩
  · cases hrun

/-- A request that a TPM's caller has posted, presented once more: it appraises as hardware, and is the caller's own. -/
theorem attestation_not_relayed_tpmCall :
    let _ := Interp.ascii
    let _ := Crypto.agreed
    ∃ w request, World.Reachable (fun _ => False) w ∧
      appraiseCallerRuntime request wireGrant {lit "read"} (demandingNode.config none) 0 = .ok .hardware ∧
      ∃ call ∈ w.calls, ∃ hello own, buildRequest call.args hello call.draws = .ok own ∧
        own.callerPossession = request.callerPossession ∧ hello.peer.publicKey = demandingNode.channelPublicKey := by
  intro _ _
  obtain ⟨hello, own, hhello, hchallenge, hpeer, hown, happraised⟩ := tpmCall_appraised
  obtain ⟨challenge, hchallenge', hbound⟩ := buildRequest_ok hown
  cases hchallenge.symm.trans hchallenge'
  obtain ⟨leaf, proof, hleaf, hproof, _, _, offer, possession, hoffer, hpossession, hoffers, _, _⟩ := hbound.proofs
  obtain rfl : wireGrant = leaf := Option.some.inj hleaf
  obtain ⟨digest, quote, hdigest, hquote, hmade⟩ := toyTpm.attestChannel_ok hoffers
  obtain ⟨hcapability, hrecord, hparent⟩ := buildRequest_fields hown
  have htranscript : requestTranscript own wireGrant offer demandingNode.privateKey =
      tpmCall.args.transcript wireGrant toyChallenge hello.peer own.sealedPayload proof offer := by
    rw [requestTranscript, TaskArgs.transcript, hcapability, hrecord, hparent, hproof, hpeer, hmade]
    rfl
  have hposted := started_of_build (by decide) hhello hown rfl
  have hposts : tpmCall.Posts hello own (requestTranscript own wireGrant offer demandingNode.privateKey) :=
    ⟨hhello, hown, ⟨.task (taskMessage own).items, trivial, hposted⟩, wireGrant, toyChallenge, proof, offer, rfl,
      hchallenge, hproof, hoffer, htranscript⟩
  -- the call is minted and then posted
  have hminted : Mints toyTpm.attest offer [digest] := .hardware (by rw [hmade]; exact hdigest)
  have hreachable : World.Reachable (fun _ => False) { signed := [digest], macs := [_], calls := [tpmCall] } :=
    .next (.next .initial (.mint hhello rfl hchallenge hoffers hminted fun _ h => h.elim)) (.post List.mem_cons_self hposts)
  have hverifier : ∀ o ∈ own.callerOffer, ∀ verify ∈ (demandingNode.config none).callerVerifier,
      verify.SoundFor [digest] o.report := by
    rintro o ho _ ⟨⟩ nonce measurement h
    cases hoffer.symm.trans ho
    obtain ⟨binding, hbinding, h⟩ := bind_ok_iff.mp h
    split at h
    · cases h
    rename_i heq
    have hevidence : offer.report.rawEvidence = some digest := by
      cases hquote
      rw [hmade]
      rfl
    obtain rfl : digest = binding := Option.some.inj (hevidence.symm.trans (not_not.mp heq))
    exact ⟨tpmPrefix, digest, List.mem_singleton_self _, hbinding⟩
  have hideal : ∀ o ∈ own.callerOffer, ∀ key ∈ (demandingNode.config none).enclavePrivateKey,
      IdealFor [tpmCall.possession hello (requestTranscript own wireGrant offer demandingNode.privateKey)] own wireGrant o
        key := by
    rintro o ho _ ⟨⟩ p hp k message ⟨hkey, hmessage⟩ _
    cases hoffer.symm.trans ho
    refine ⟨_, List.mem_singleton_self _, ?_, hmessage⟩
    obtain ⟨shared, hout, hin⟩ := Crypto.agreed_correct.agreement tpmCall.draws.callerKey demandingNode.privateKey
    rw [hmade] at hkey
    cases hkey.symm.trans (possessionKey_eq hin)
    rw [hpeer]
    exact possessionKey_eq hout
  obtain ⟨_, _, _, _, hkey, _, _, call, hcall, hello', own', hposts', hsame, hpeer', _⟩ :=
    attestation_not_relayed (fun _ _ h => h) (fun _ => False) _ hreachable own wireGrant {lit "read"} (demandingNode.config none) 0
      hverifier hideal (fun _ _ _ h => h.elim) happraised
  cases hkey
  exact ⟨_, own, hreachable, happraised, call, hcall, hello', own', hposts'.built, hsame, hpeer'⟩

end Ca2a
