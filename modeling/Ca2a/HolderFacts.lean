/-
Holder proofs do not transfer: a proof commits to one audience, one leaf and
one request, at whichever callee it is presented.
-/
import Ca2a.Bodies

namespace Ca2a

open Py

theorem HolderParams.fields_inj {p p' : HolderParams} {leaf leaf' : DelegationCredential} {challenge challenge' : Str} :
    p'.fields leaf' challenge' = p.fields leaf challenge ↔
      p' = p ∧ challenge' = challenge ∧ leaf'.credentialId = leaf.credentialId ∧ leaf'.subject = leaf.subject := by
  cases p
  cases p'
  simp only [HolderParams.fields, ProofFields.mk.injEq, HolderParams.mk.injEq]
  tauto

variable [Interp] [Crypto]

/-- One signature, accepted twice, was accepted for the same fields. -/
theorem fields_of_verifyHolderProof (hsig : Crypto.IdealSignature) (hsha : Function.Injective Crypto.sha256)
    {proof : HolderProof} {leaf leaf' : DelegationCredential} {secret secret' : Bytes} {p p' : HolderParams}
    {now now' : Int} (h : verifyHolderProof proof leaf secret p now = .ok ())
    (h' : verifyHolderProof proof leaf' secret' p' now' = .ok ()) :
    p'.fields leaf' proof.challenge = p.fields leaf proof.challenge := by
  rw [verifyHolderProof_ok_iff] at h h'
  obtain ⟨b, hb, hb'⟩ := h.2.canonicalize_eq hsig h'.2
  exact proofBody_injective hsha hb hb'

/-- What the builder returns. -/
theorem buildHolderProof_ok {key : Crypto.EdKey} {leaf : DelegationCredential} {challenge : Str} {p : HolderParams}
    {proof : HolderProof} (h : buildHolderProof key leaf challenge p = .ok proof) :
    ∃ msg, canonicalize (ε := CA2AError) (proofBody (p.fields leaf challenge)) = .ok msg ∧
      leaf.subject = hex (Crypto.edPublic key) ∧
      proof = { challenge, signature := hex (Crypto.edSign key msg) } := by
  rw [buildHolderProof] at h
  split at h
  · cases h
  · rename_i hk
    rw [bind_ok_iff] at h
    obtain ⟨msg, hmsg, h⟩ := h
    cases h
    simp only [ne_eq, not_not] at hk
    exact ⟨msg, hmsg, hk.symm, rfl⟩

/-- A proof made with the subject's key carries its signature over the body. -/
theorem signedBy_of_build (hc : Crypto.SignatureCorrect) {key : Crypto.EdKey} {leaf : DelegationCredential}
    {challenge : Str} {p : HolderParams} {proof : HolderProof} (h : buildHolderProof key leaf challenge p = .ok proof) :
    SignedBy leaf.subject proof.signature (proofBody (p.fields leaf challenge)) := by
  obtain ⟨msg, hmsg, hsub, rfl⟩ := buildHolderProof_ok h
  obtain ⟨hkey, hv, _⟩ := hc key msg
  exact ⟨_, _, msg, by rw [hsub]; exact fromHex?_hex _, hkey, fromHex?_hex _, hmsg, hv⟩

/-- **Holder proofs do not transfer.** Two calls that accept one proof agree on every
parameter and on the leaf's id and subject (the challenge is the proof's own); and a proof the builder made verifies, while its
challenge is valid, for exactly what it was built with. -/
theorem holderProof_binding (hsig : Crypto.IdealSignature) (hsha : Function.Injective Crypto.sha256) :
    (∀ (proof : HolderProof) (leaf leaf' : DelegationCredential) (secret secret' : Bytes) (p p' : HolderParams)
        (now now' : Int), verifyHolderProof proof leaf secret p now = .ok () →
      verifyHolderProof proof leaf' secret' p' now' = .ok () →
      p'.audience = p.audience ∧ leaf'.credentialId = leaf.credentialId ∧ leaf'.subject = leaf.subject ∧
        p'.requestedCapability = p.requestedCapability ∧ p'.recordId = p.recordId ∧
        p'.sealedPayload = p.sealedPayload ∧ p'.callerChannelKey = p.callerChannelKey ∧
        p'.parentRecordHash = p.parentRecordHash) ∧
    (Crypto.SignatureCorrect → ∀ key leaf challenge p proof, buildHolderProof key leaf challenge p = .ok proof →
      ∀ secret now, verifyChallenge secret challenge now = .ok () → ∀ leaf' p',
        (verifyHolderProof proof leaf' secret p' now = .ok () ↔
          p' = p ∧ leaf'.credentialId = leaf.credentialId ∧ leaf'.subject = leaf.subject)) := by
  refine ⟨fun proof leaf leaf' secret secret' p p' now now' h h' => ?_,
    fun hc key leaf challenge p proof hb secret now hch leaf' p' => ?_⟩
  · obtain ⟨rfl, -, hid, hsub⟩ := HolderParams.fields_inj.mp (fields_of_verifyHolderProof hsig hsha h h')
    exact ⟨rfl, hid, hsub, rfl, rfl, rfl, rfl, rfl⟩
  · have hchal : proof.challenge = challenge := by
      obtain ⟨_, _, _, rfl⟩ := buildHolderProof_ok hb
      rfl
    have hsigned := signedBy_of_build hc hb
    have hbuilt : verifyHolderProof proof leaf secret p now = .ok () := by
      rw [verifyHolderProof_ok_iff, hchal]
      exact ⟨hch, hsigned⟩
    constructor
    · intro h
      obtain ⟨hp, -, hid, hsub⟩ := HolderParams.fields_inj.mp (fields_of_verifyHolderProof hsig hsha hbuilt h)
      exact ⟨hp, hid, hsub⟩
    · rintro ⟨rfl, hid, hsub⟩
      rw [verifyHolderProof_ok_iff, hchal, hsub, HolderParams.fields_inj.mpr ⟨rfl, rfl, hid, hsub⟩]
      exact ⟨hch, hsigned⟩

/-- A challenge of the toy callee, valid until 1000. -/
def toyChallenge : Str := lit "v1.1000.ab." ++ List.replicate 64 (cp '0')

omit [Interp] [Crypto] in
theorem toyChallenge_valid : @verifyChallenge Interp.ascii Crypto.toy [] toyChallenge 0 = .ok () := rfl

omit [Interp] [Crypto] in
theorem toyChallenge_clean : Clean toyChallenge :=
  clean_append.mpr ⟨clean_lit _, clean_of_ascii fun c hc => by rw [List.eq_of_mem_replicate hc]; decide⟩

/-- A request to read, with no payload and no offer. -/
def readParams : HolderParams where
  audience := lit "callee"
  requestedCapability := lit "read"
  recordId := lit "r0"

omit [Interp] [Crypto] in
/-- The subject of `readGrant` can prove that it holds it. -/
theorem exists_readProof :
    let _ := Interp.ascii
    let _ := Crypto.toy
    ∃ proof, proof.challenge = toyChallenge ∧
      buildHolderProof (2 : UInt8) readGrant toyChallenge readParams = .ok proof := by
  let _ := Interp.ascii
  let _ := Crypto.toy
  have hcan : Canonical (proofBody (readParams.fields readGrant toyChallenge)) := by
    simp [proofBody, payloadSha256, HolderParams.fields, readParams, readGrant, toyChallenge_clean, proofDomain, clean_lit]
  obtain ⟨msg, hmsg⟩ := (exists_canonicalize_iff (ε := CA2AError)).mpr hcan
  have hk : hex (Crypto.edPublic (2 : UInt8)) = readGrant.subject := rfl
  refine ⟨{ challenge := toyChallenge, signature := hex (Crypto.edSign (2 : UInt8) msg) }, rfl, ?_⟩
  rw [buildHolderProof, if_neg (not_not.mpr hk), hmsg]
  rfl

omit [Interp] [Crypto] in
/-- That proof verifies for every leaf with the id and the subject of `readGrant`. -/
theorem exists_readProof_verifies :
    ∃ proof, ∀ c : DelegationCredential, c.credentialId = readGrant.credentialId → c.subject = readGrant.subject →
      @verifyHolderProof Crypto.toy Interp.ascii proof c [] readParams 0 = .ok () := by
  let _ := Interp.ascii
  let _ := Crypto.toy
  obtain ⟨proof, hchal, hb⟩ := exists_readProof
  refine ⟨proof, fun c hid hsub => ?_⟩
  rw [verifyHolderProof_ok_iff, hchal, hsub, HolderParams.fields_inj.mpr ⟨rfl, rfl, hid, hsub⟩]
  exact ⟨toyChallenge_valid, signedBy_of_build Crypto.toy_signatureCorrect hb⟩

omit [Interp] [Crypto] in
theorem holderProof_binding_readParams :
    let _ := Interp.ascii
    let _ := Crypto.toy
    ∃ proof, buildHolderProof (2 : UInt8) readGrant toyChallenge readParams = .ok proof ∧
      verifyHolderProof proof readGrant [] readParams 0 = .ok () ∧
      ∀ p', verifyHolderProof proof readGrant [] p' 0 = .ok () → p'.audience = lit "callee" := by
  let _ := Interp.ascii
  let _ := Crypto.toy
  obtain ⟨proof, -, hb⟩ := exists_readProof
  obtain ⟨htransfer, hbuild⟩ := holderProof_binding Crypto.toy_idealSignature (fun _ _ h => h)
  have hv := (hbuild Crypto.toy_signatureCorrect _ _ _ _ _ hb [] 0 toyChallenge_valid readGrant readParams).mpr
    ⟨rfl, rfl, rfl⟩
  exact ⟨proof, hb, hv, fun p' h => (htransfer _ _ _ _ _ _ _ _ _ hv h).1⟩

end Ca2a
