/-
The signed and hashed bodies: each kind is injective in its fields, and the
three kinds that are signed never have the same bytes.

Everything rests on one fact (`fields_of_canonicalize`): two objects with
the same canonical bytes agree at every key, absent keys included. The
kinds are told apart by how many fields they have: a revocation has four, a
credential six to eight, a holder proof ten.
-/
import Ca2a.Holder
import Ca2a.Provenance
import Ca2a.Revocation

namespace Ca2a

open Py

section
variable [Interp] {d e : List (Str × Json)} {b : Bytes}

/-- Objects with the same canonical bytes agree at every key. -/
theorem fields_of_canonicalize (hd : (Json.obj d).WF) (he : (Json.obj e).WF)
    (h : canonicalize (ε := CA2AError) (.obj d) = .ok b) (h' : canonicalize (ε := CA2AError) (.obj e) = .ok b) (k : Str) :
    Option.Rel Json.Same (Dict.get? d k) (Dict.get? e k) :=
  (same_of_canonicalize hd he h h').get? (same_of_canonicalize he hd h' h) k

/-- Objects with the same canonical bytes have as many fields. -/
theorem length_of_canonicalize (hd : (Json.obj d).WF) (he : (Json.obj e).WF)
    (h : canonicalize (ε := CA2AError) (.obj d) = .ok b) (h' : canonicalize (ε := CA2AError) (.obj e) = .ok b) :
    d.length = e.length := by
  have := same_of_canonicalize hd he h h'
  simp only [Json.Same] at this
  exact this.1

end

/-! ## Fields -/

@[simp] theorem same_optStr {a b : Option Str} : Json.Same (optStr a) (optStr b) ↔ a = b := by
  cases a <;> cases b <;> simp [optStr, Json.Same]

@[simp] theorem same_strArr {l m : List Str} : Json.Same (strArr l) (strArr m) ↔ l = m := by
  have harr : ∀ xs ys : List Json, Json.Same (.arr xs) (.arr ys) ↔ List.Forall₂ Json.Same xs ys := by
    simp [Json.Same, Json.sameItems_iff]
  simp only [strArr, harr, List.forall₂_map_left_iff, List.forall₂_map_right_iff, Json.same_str]
  rw [List.forall₂_eq_eq_eq]

theorem sortedStrs_injective : Function.Injective sortedStrs := fun s t h => by
  rw [← Finset.sort_toFinset s (· ≤ ·), ← Finset.sort_toFinset t (· ≤ ·)]
  exact congrArg List.toFinset h

@[simp] theorem sortedStrs_inj {s t : Finset Str} : sortedStrs s = sortedStrs t ↔ s = t := sortedStrs_injective.eq_iff

@[simp] theorem wf_optStr (o : Option Str) : (optStr o).WF := by cases o <;> trivial

@[simp] theorem wf_strArr (l : List Str) : (strArr l).WF := by simp [strArr]

theorem get?_optField (k k' : Str) (o : Option Json) : Dict.get? (optField k o) k' = if k = k' then o else none := by
  cases o <;> simp [optField, Dict.get?_cons]

/-- Optional fields agree when what they hold is told apart by the encoding. -/
theorem rel_map_iff {α : Type} {f : α → Json} (hf : ∀ {a b}, Json.Same (f a) (f b) ↔ a = b) {o o' : Option α} :
    Option.Rel Json.Same (o.map f) (o'.map f) ↔ o = o' := by
  cases o <;> cases o' <;> simp [hf]

/-! ## Bodies are dictionaries -/

theorem DelegationCredential.wf_body (c : DelegationCredential) : c.body.WF := by
  cases hb : c.notBefore <;> cases ha : c.notAfter <;>
    simp [DelegationCredential.body, hb, ha, optField, Dict.keys]

theorem RevocationStatement.wf_body (s : RevocationStatement) : s.body.WF := by
  simp [RevocationStatement.body, Dict.keys]

theorem wf_proofBody [Crypto] (p : ProofFields) : (proofBody p).WF := by
  simp [proofBody, payloadSha256, Dict.keys]

theorem DelegationRecord.wf_body (r : DelegationRecord) : r.body.WF := by
  by_cases hd : r.decision = lit "allow" <;> cases hc : r.requestedCapability <;> cases he : r.effectiveScope <;>
    cases hr : r.denialReason <;> simp [DelegationRecord.body, hd, hc, he, hr, optField, Dict.keys]

/-! ## Each body is injective -/

section
variable [Interp] {b : Bytes}

/-- Credentials with the same signed bytes are the same up to the signature. -/
theorem DelegationCredential.eq_of_canonicalize {c c' : DelegationCredential}
    (h : canonicalize (ε := CA2AError) c.body = .ok b) (h' : canonicalize (ε := CA2AError) c'.body = .ok b) :
    c' = { c with signature := c'.signature } := by
  have hf := fields_of_canonicalize c.wf_body c'.wf_body h h'
  have hid := hf (lit "credential_id")
  have hissuer := hf (lit "issuer")
  have hsubject := hf (lit "subject")
  have hscope := hf (lit "scope")
  have hdepth := hf (lit "depth")
  have hparent := hf (lit "parent_id")
  have hnb := hf (lit "not_before")
  have hna := hf (lit "not_after")
  simp [Dict.get?_append, Dict.get?_cons, get?_optField] at hid hissuer hsubject hscope hdepth hparent hnb hna
  rw [rel_map_iff (by simp)] at hnb hna
  cases c
  cases c'
  simp_all

theorem RevocationStatement.eq_of_canonicalize {s s' : RevocationStatement}
    (h : canonicalize (ε := CA2AError) s.body = .ok b) (h' : canonicalize (ε := CA2AError) s'.body = .ok b) :
    s' = { s with signature := s'.signature } := by
  have hf := fields_of_canonicalize s.wf_body s'.wf_body h h'
  have hdigest := hf (lit "revoked_digest")
  have hrevoker := hf (lit "revoker")
  have hissued := hf (lit "issued_at")
  simp [Dict.get?_cons] at hdigest hrevoker hissued
  cases s
  cases s'
  simp_all

/-- Holder proofs with the same signed bytes commit to the same fields, to the payload through
its digest. -/
theorem proofBody_eq_of_canonicalize [Crypto] {p q : ProofFields}
    (h : canonicalize (ε := CA2AError) (proofBody p) = .ok b) (h' : canonicalize (ε := CA2AError) (proofBody q) = .ok b) :
    q = { p with sealedPayload := q.sealedPayload } ∧
      p.sealedPayload.map Crypto.sha256Hex = q.sealedPayload.map Crypto.sha256Hex := by
  have hf := fields_of_canonicalize (wf_proofBody p) (wf_proofBody q) h h'
  have haud := hf (lit "audience")
  have hchal := hf (lit "challenge")
  have hid := hf (lit "credential_id")
  have hsub := hf (lit "subject")
  have hcap := hf (lit "requested_capability")
  have hrec := hf (lit "record_id")
  have hpay := hf (lit "payload_sha256")
  have hkey := hf (lit "caller_channel_key")
  have hpar := hf (lit "parent_record_hash")
  simp [Dict.get?_cons, payloadSha256] at haud hchal hid hsub hcap hrec hpay hkey hpar
  cases p
  cases q
  simp_all

theorem proofBody_injective [Crypto] (hsha : Function.Injective Crypto.sha256) {p q : ProofFields}
    (h : canonicalize (ε := CA2AError) (proofBody p) = .ok b) (h' : canonicalize (ε := CA2AError) (proofBody q) = .ok b) :
    q = p := by
  obtain ⟨heq, hpay⟩ := proofBody_eq_of_canonicalize h h'
  rw [heq, ← Option.map_injective (Crypto.sha256Hex_injective hsha) hpay]

omit [Interp] in
theorem CallerAttestation.text_injective : Function.Injective CallerAttestation.text := by
  intro a b h
  cases a <;> cases b <;> simp [CallerAttestation.text] at h <;> rfl

/-- Records with the same hashed bytes are the same, absent optional fields included. -/
theorem DelegationRecord.eq_of_canonicalize {r r' : DelegationRecord}
    (h : canonicalize (ε := CA2AError) r.body = .ok b) (h' : canonicalize (ε := CA2AError) r'.body = .ok b) :
    r' = r := by
  have hf := fields_of_canonicalize r.wf_body r'.wf_body h h'
  have hrec := hf (lit "record_id")
  have hid := hf (lit "credential_id")
  have hsub := hf (lit "subject")
  have hscope := hf (lit "scope")
  have hpar := hf (lit "parent_record_hash")
  have hatt := hf (lit "caller_attestation")
  have hdec := hf (lit "decision")
  have hcap := hf (lit "requested_capability")
  have heff := hf (lit "effective_scope")
  have hreason := hf (lit "denial_reason")
  simp [Dict.get?_append, Dict.get?_cons, get?_optField] at hrec hid hsub hscope hpar hatt hdec hcap heff hreason
  rw [rel_map_iff (by simp)] at hcap hreason heff
  have hdec' : r.decision = r'.decision := by
    split at hdec <;> split at hdec <;> simp_all
  cases r
  cases r'
  simp_all [CallerAttestation.text_injective.eq_iff]

theorem credentialDigest_ok [Crypto] {c : DelegationCredential} {d : Str} (h : credentialDigest c = .ok d) :
    ∃ msg, canonicalize (ε := CA2AError) c.body = .ok msg ∧ d = lit "sha256:" ++ Crypto.sha256Hex msg := by
  rw [credentialDigest, bind_ok_iff] at h
  obtain ⟨msg, hmsg, h⟩ := h
  cases h
  exact ⟨msg, hmsg, rfl⟩

theorem recordHash_ok [Crypto] {r : DelegationRecord} {d : Str} (h : r.recordHash = .ok d) :
    ∃ msg, canonicalize (ε := CA2AError) r.body = .ok msg ∧ d = Crypto.sha256Hex msg := by
  rw [DelegationRecord.recordHash, bind_ok_iff] at h
  obtain ⟨msg, hmsg, h⟩ := h
  cases h
  exact ⟨msg, hmsg, rfl⟩

theorem DelegationRecord.eq_of_recordHash [Crypto] (hsha : Function.Injective Crypto.sha256) {r r' : DelegationRecord}
    {d : Str} (h : r.recordHash = .ok d) (h' : r'.recordHash = .ok d) : r' = r := by
  obtain ⟨msg, hmsg, rfl⟩ := recordHash_ok h
  obtain ⟨msg', hmsg', heq⟩ := recordHash_ok h'
  rw [← Crypto.sha256Hex_injective hsha heq] at hmsg'
  exact DelegationRecord.eq_of_canonicalize hmsg hmsg'

end

/-! ## The kinds are told apart -/

/-- What an Ed25519 key of the runtime signs. -/
inductive SignedObject
  | credential (c : DelegationCredential)
  | revocation (s : RevocationStatement)
  | proof (p : ProofFields)

section
variable [Crypto]

def SignedObject.body : SignedObject → Json
  | .credential c => c.body
  | .revocation s => s.body
  | .proof p => proofBody p

/-- The objects are of one kind and have the same signed fields. -/
def SignedObject.SameFields : SignedObject → SignedObject → Prop
  | .credential c, .credential c' => c' = { c with signature := c'.signature }
  | .revocation s, .revocation s' => s' = { s with signature := s'.signature }
  | .proof p, .proof q => q = { p with sealedPayload := q.sealedPayload } ∧
      p.sealedPayload.map Crypto.sha256Hex = q.sealedPayload.map Crypto.sha256Hex
  | _, _ => False

omit [Crypto] in
theorem optField_length (k : Str) (o : Option Json) : (optField k o).length ≤ 1 := by
  cases o <;> simp [optField]

variable [Interp]

omit [Crypto] in
theorem revocation_ne_credential {c : DelegationCredential} {s : RevocationStatement} {b : Bytes}
    (h : canonicalize (ε := CA2AError) c.body = .ok b) : canonicalize (ε := CA2AError) s.body ≠ .ok b := by
  intro h'
  have := length_of_canonicalize c.wf_body s.wf_body h h'
  simp only [List.length_append, List.length_cons] at this
  omega

theorem proof_ne_credential {c : DelegationCredential} {p : ProofFields} {b : Bytes}
    (h : canonicalize (ε := CA2AError) c.body = .ok b) : canonicalize (ε := CA2AError) (proofBody p) ≠ .ok b := by
  intro h'
  have := length_of_canonicalize c.wf_body (wf_proofBody p) h h'
  have hnb := optField_length (lit "not_before") (c.notBefore.map fun n : Nat => .int n)
  have hna := optField_length (lit "not_after") (c.notAfter.map fun n : Nat => .int n)
  simp only [List.length_append, List.length_cons, List.length_nil] at this
  omega

theorem proof_ne_revocation {s : RevocationStatement} {p : ProofFields} {b : Bytes}
    (h : canonicalize (ε := CA2AError) s.body = .ok b) : canonicalize (ε := CA2AError) (proofBody p) ≠ .ok b := by
  intro h'
  have := length_of_canonicalize s.wf_body (wf_proofBody p) h h'
  simp at this

/-- Equal bytes mean one kind and the same fields. -/
theorem sameFields_of_canonicalize {x y : SignedObject} {b : Bytes}
    (h : canonicalize (ε := CA2AError) x.body = .ok b) (h' : canonicalize (ε := CA2AError) y.body = .ok b) :
    x.SameFields y := by
  cases x with
  | credential c =>
    cases y with
    | credential c' => exact DelegationCredential.eq_of_canonicalize h h'
    | revocation s => exact revocation_ne_credential h h'
    | proof p => exact proof_ne_credential h h'
  | revocation s =>
    cases y with
    | credential c => exact revocation_ne_credential h' h
    | revocation s' => exact RevocationStatement.eq_of_canonicalize h h'
    | proof p => exact proof_ne_revocation h h'
  | proof p =>
    cases y with
    | credential c => exact proof_ne_credential h' h
    | revocation s => exact proof_ne_revocation h' h
    | proof q => exact proofBody_eq_of_canonicalize h h'

/-- A signature that verifies for two bodies is over the same bytes. -/
theorem SignedBy.canonicalize_eq (hsig : Crypto.IdealSignature) {key key' sig : Str} {j j' : Json}
    (h : SignedBy key sig j) (h' : SignedBy key' sig j') :
    ∃ b, canonicalize (ε := CA2AError) j = .ok b ∧ canonicalize (ε := CA2AError) j' = .ok b := by
  obtain ⟨_, s, msg, _, _, hs, hmsg, hv⟩ := h
  obtain ⟨_, s', msg', _, _, hs', hmsg', hv'⟩ := h'
  rw [hs] at hs'
  cases hs'
  obtain ⟨_, rfl⟩ := hsig _ _ _ _ _ hv hv'
  exact ⟨msg, hmsg, hmsg'⟩

/-- **Signing domains are disjoint and every body is injective.** Equal bytes mean equal
objects of one kind, so an ideal signature never verifies for an object of another kind, and
with an injective digest a credential digest names one grant and a record hash one record. -/
theorem signing_domains_disjoint :
    (∀ (x y : SignedObject) b, canonicalize (ε := CA2AError) x.body = .ok b →
      canonicalize (ε := CA2AError) y.body = .ok b → x.SameFields y) ∧
    (∀ (r r' : DelegationRecord) b, canonicalize (ε := CA2AError) r.body = .ok b →
      canonicalize (ε := CA2AError) r'.body = .ok b → r' = r) ∧
    (Crypto.IdealSignature → ∀ (x y : SignedObject) key key' sig, SignedBy key sig x.body → SignedBy key' sig y.body →
      x.SameFields y) ∧
    (Function.Injective Crypto.sha256 →
      (∀ (c c' : DelegationCredential) d, credentialDigest c = .ok d → credentialDigest c' = .ok d →
        c' = { c with signature := c'.signature }) ∧
      ∀ (r r' : DelegationRecord) d, r.recordHash = .ok d → r'.recordHash = .ok d → r' = r) := by
  refine ⟨fun x y b h h' => sameFields_of_canonicalize h h', fun r r' b h h' => DelegationRecord.eq_of_canonicalize h h',
    fun hsig x y key key' sig h h' => ?_, fun hsha => ⟨fun c c' d h h' => ?_, fun r r' d h h' => DelegationRecord.eq_of_recordHash hsha h h'⟩⟩
  · obtain ⟨b, hb, hb'⟩ := h.canonicalize_eq hsig h'
    exact sameFields_of_canonicalize hb hb'
  · obtain ⟨msg, hmsg, rfl⟩ := credentialDigest_ok h
    obtain ⟨msg', hmsg', heq⟩ := credentialDigest_ok h'
    rw [← Crypto.sha256Hex_injective hsha (List.append_cancel_left heq)] at hmsg'
    exact DelegationCredential.eq_of_canonicalize hmsg hmsg'

end

theorem signing_domains_readGrant :
    let _ := Interp.ascii
    let _ := Crypto.toy
    ∃ c d, readGrant.sign (1 : UInt8) = .ok c ∧ c.Signed ∧ credentialDigest c = .ok d ∧ credentialDigest readGrant = .ok d ∧
      c = { readGrant with signature := c.signature } ∧
      ∀ key s, ¬ SignedBy key c.signature (RevocationStatement.body s) := by
  let _ := Interp.ascii
  let _ := Crypto.toy
  obtain ⟨c, hc⟩ := DelegationCredential.exists_sign (show hex (Crypto.edPublic (1 : UInt8)) = readGrant.issuer from rfl) readGrant_canonical
  obtain ⟨heq, hsig⟩ := DelegationCredential.sign_ok Crypto.toy_signatureCorrect hc
  obtain ⟨_, _, msg, _, _, _, hmsg, _⟩ := hsig.2
  have hbody : c.body = readGrant.body := by rw [heq]; rfl
  have hd : credentialDigest c = .ok (lit "sha256:" ++ Crypto.sha256Hex msg) := by rw [credentialDigest, hmsg]; rfl
  have hd' : credentialDigest readGrant = .ok (lit "sha256:" ++ Crypto.sha256Hex msg) := by
    rw [credentialDigest, ← hbody, hmsg]; rfl
  obtain ⟨-, -, hideal, hdigest⟩ := signing_domains_disjoint
  refine ⟨c, _, hc, hsig, hd, hd', (hdigest fun _ _ h => h).1 _ _ _ hd' hd, fun key s hs => ?_⟩
  exact hideal Crypto.toy_idealSignature (.credential c) (.revocation s) _ _ _ hsig.2 hs

end Ca2a
