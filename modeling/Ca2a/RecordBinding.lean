/-
The two-run law of holder binding: what a holder proof fixes of the record a
callee emits.

The source states that every field of the request that reaches the record
is committed by the proof. Two are not: the leaf's scope (the proof names
the leaf by id and subject only) and the platform of the caller's offer (the
proof names its channel key only), from which `caller_attestation` is
derived. `record_eq_iff` says that these two are all there is.
-/
import Ca2a.PeerFacts

namespace Ca2a

open Py

/-- The scope of the leaf the request presents. -/
def PeerRequest.leafScope (r : PeerRequest) : Option (Finset Str) := r.chain.getLast?.map (·.scope)

/-- Whether the offer, if there is one, claims the software-only platform. -/
def PeerRequest.offersSoftware (r : PeerRequest) : Option Bool :=
  r.callerOffer.map fun o => decide (o.report.platform = softwareOnly)

section
variable [Interp] [Crypto]

/-- The recorded attestation is a function of what the offer claims. -/
theorem Accepted.attestation_eq {r : PeerRequest} {config : PeerConfig} {clock : Readings} {leaf : DelegationCredential}
    {res : PeerResult} (h : Accepted r config clock leaf res) :
    res.callerAttestation =
      match r.offersSoftware with
      | none => .notOffered
      | some true => .softwareOnly
      | some false => .hardware := by
  obtain ⟨_, happ⟩ := appraiseCallerRuntime_ok_iff.mp h.appraisal
  cases ho : r.callerOffer with
  | none =>
    rw [ho] at happ
    simp [PeerRequest.offersSoftware, ho, happ.2.2]
  | some offer =>
    rw [ho] at happ
    obtain ⟨peer, hpeer, hout, _⟩ := happ
    rw [hout]
    simp only [PeerRequest.offersSoftware, ho, Option.map_some, appraiseOffer_attestation hpeer]
    by_cases hs : offer.report.platform = softwareOnly <;> simp [hs]

/-- Two accepted requests with one proof agree on what the proof commits to. -/
theorem committed_of_accepted (hsig : Crypto.IdealSignature) (hsha : Function.Injective Crypto.sha256)
    {config : PeerConfig} {clock clock' : Readings} {r r' : PeerRequest} {leaf leaf' : DelegationCredential}
    {res res' : PeerResult} (hreq : config.requireHolderProof = true) (hproof : r'.holderProof = r.holderProof)
    (h : Accepted r config clock leaf res) (h' : Accepted r' config clock' leaf' res') :
    r'.recordId = r.recordId ∧ r'.parentRecordHash = r.parentRecordHash ∧ leaf'.credentialId = leaf.credentialId ∧
      leaf'.subject = leaf.subject ∧
      r'.callerOffer.map (·.channelPublicKey) = r.callerOffer.map (·.channelPublicKey) := by
  obtain ⟨proof, audience, secret, hp, ha, hs, hv⟩ := verifyCallerHoldsLeaf_ok_iff.mp (h.holder hreq)
  obtain ⟨proof', audience', secret', hp', ha', hs', hv'⟩ := verifyCallerHoldsLeaf_ok_iff.mp (h'.holder hreq)
  rw [hproof, hp] at hp'
  cases hp'
  obtain ⟨hparams, -, hid, hsub⟩ := HolderParams.fields_inj.mp (fields_of_verifyHolderProof hsig hsha hv hv')
  simp only [holderParams, HolderParams.mk.injEq] at hparams
  exact ⟨hparams.2.2.1, hparams.2.2.2.2.2, hid, hsub, hparams.2.2.2.2.1⟩

/-- **When two runs with one proof emit one record**: exactly when the leaves have one scope
and the offers, if any, are both software-only or both not. -/
theorem record_eq_iff (hsig : Crypto.IdealSignature) (hsha : Function.Injective Crypto.sha256) (config : PeerConfig)
    (clock : Readings) (r r' : PeerRequest) (res res' : PeerResult) (hreq : config.requireHolderProof = true)
    (hproof : r'.holderProof = r.holderProof) (h : (handlePeerRequest r config clock).result = .ok res)
    (h' : (handlePeerRequest r' config clock).result = .ok res') :
    res'.record = res.record ↔ r'.leafScope = r.leafScope ∧ r'.offersSoftware = r.offersSoftware := by
  obtain ⟨leaf, hacc⟩ := handlePeerRequest_ok_iff.mp h
  obtain ⟨leaf', hacc'⟩ := handlePeerRequest_ok_iff.mp h'
  obtain ⟨hrec, hpar, hid, hsub, hoffer⟩ := committed_of_accepted hsig hsha hreq hproof hacc hacc'
  have hatt : res'.callerAttestation = res.callerAttestation ↔ r'.offersSoftware = r.offersSoftware := by
    rw [hacc.attestation_eq, hacc'.attestation_eq]
    rcases ho : r.callerOffer with _ | o <;> rcases ho' : r'.callerOffer with _ | o' <;> simp [ho, ho'] at hoffer
    · simp [PeerRequest.offersSoftware, ho, ho']
    · simp only [PeerRequest.offersSoftware, ho, ho', Option.map_some]
      by_cases hs : o.report.platform = softwareOnly <;> by_cases hs' : o'.report.platform = softwareOnly <;>
        simp [hs, hs']
  rw [hacc.record, hacc'.record, PeerRequest.leafScope, PeerRequest.leafScope, hacc.leaf_eq, hacc'.leaf_eq, ← hatt]
  simp [recordFor, hrec, hpar, hid, hsub]

end

/-- The same grant with more authority. -/
def readWriteGrant : DelegationCredential := { readGrant with scope := {lit "read", lit "write"} }

/-- The same grant with a bound. -/
def boundedGrant : DelegationCredential := { readGrant with notAfter := some 500 }

theorem readWriteGrant_canonical : Canonical readWriteGrant.body := by
  rw [DelegationCredential.canonical_body_iff]
  simp [readWriteGrant, readGrant, clean_lit, clean_hex]

theorem boundedGrant_canonical : Canonical boundedGrant.body := by
  rw [DelegationCredential.canonical_body_iff]
  simp [boundedGrant, readGrant, clean_lit, clean_hex, maxSafeInteger]

/-- The toy callee emits two records for one proof: `readGrant` and `readWriteGrant` have one id
and one subject. -/
theorem records_of_readGrant_differ :
    let _ := Interp.ascii
    let _ := Crypto.toy
    ¬ (Crypto.IdealSignature → Function.Injective Crypto.sha256 →
      ∀ (config : PeerConfig) (clock : Readings) (r r' : PeerRequest) (res res' : PeerResult),
        config.requireHolderProof = true → r'.holderProof = r.holderProof →
        (handlePeerRequest r config clock).result = .ok res → (handlePeerRequest r' config clock).result = .ok res' →
        res'.record = res.record) := by
  intro _ _ hlaw
  obtain ⟨sig, hs⟩ := exists_signed rfl readGrant_canonical
  obtain ⟨sig', hs'⟩ := exists_signed rfl readWriteGrant_canonical
  obtain ⟨proof, hproof⟩ := exists_readProof_verifies
  obtain ⟨res, hres, hrec⟩ := toyConfig_accepts hs rfl rfl rfl (by simp [DelegationCredential.InWindow, readGrant])
    (by simp [readGrant]) (hproof _ rfl rfl)
  obtain ⟨res', hres', hrec'⟩ := toyConfig_accepts hs' rfl rfl rfl
    (by simp [DelegationCredential.InWindow, readWriteGrant, readGrant]) (by simp [readWriteGrant]) (hproof _ rfl rfl)
  have heq := hlaw Crypto.toy_idealSignature (fun _ _ h => h) toyConfig toyReadings _ _ res res' rfl (by rfl) hres hres'
  rw [hrec, hrec'] at heq
  have hscope : ({lit "read", lit "write"} : Finset Str) = {lit "read"} := congrArg DelegationRecord.scope heq
  have hw : lit "write" ∈ ({lit "read"} : Finset Str) := hscope ▸ by simp
  simp at hw

theorem record_eq_boundedGrant :
    let _ := Interp.ascii
    let _ := Crypto.toy
    ∃ c c' proof res res', c.notAfter = none ∧ c'.notAfter = some 500 ∧
      (handlePeerRequest (toyRequest c proof) toyConfig toyReadings).result = .ok res ∧
      (handlePeerRequest (toyRequest c' proof) toyConfig toyReadings).result = .ok res' ∧ res'.record = res.record := by
  intro _ _
  obtain ⟨sig, hs⟩ := exists_signed rfl readGrant_canonical
  obtain ⟨sig', hs'⟩ := exists_signed rfl boundedGrant_canonical
  obtain ⟨proof, hproof⟩ := exists_readProof_verifies
  obtain ⟨res, hres, -⟩ := toyConfig_accepts hs rfl rfl rfl (by simp [DelegationCredential.InWindow, readGrant])
    (by simp [readGrant]) (hproof _ rfl rfl)
  obtain ⟨res', hres', -⟩ := toyConfig_accepts hs' rfl rfl rfl
    (by simp [DelegationCredential.InWindow, boundedGrant, readGrant]) (by simp [boundedGrant, readGrant])
    (hproof _ rfl rfl)
  exact ⟨_, _, proof, res, res', rfl, rfl, hres, hres',
    (record_eq_iff Crypto.toy_idealSignature (fun _ _ h => h) toyConfig toyReadings _ _ res res' rfl (by rfl) hres hres').mpr
      ⟨rfl, rfl⟩⟩

end Ca2a
