/-
`ca2a_runtime.provenance`: the hashed body of a record, and the records a
hop emits. The denial fields are left out of the body when they are absent,
`caller_attestation` never is.
-/
import Ca2a.Credential

namespace Ca2a

open Py

namespace DelegationRecord

/-- `DelegationRecord.body` -/
def body (r : DelegationRecord) : Json :=
  .obj ([(lit "record_id", .str r.recordId), (lit "credential_id", .str r.credentialId),
    (lit "subject", .str r.subject), (lit "scope", strArr (sortedStrs r.scope)),
    (lit "parent_record_hash", optStr r.parentRecordHash),
    (lit "caller_attestation", .str r.callerAttestation.text)] ++
    optField (lit "decision") (if r.decision = lit "allow" then none else some (.str r.decision)) ++
    optField (lit "requested_capability") (r.requestedCapability.map .str) ++
    optField (lit "effective_scope") (r.effectiveScope.map fun s => strArr (sortedStrs s)) ++
    optField (lit "denial_reason") (r.denialReason.map .str))

/-- `DelegationRecord.record_hash` -/
def recordHash [Interp] [Crypto] (r : DelegationRecord) : Result Str := do
  let msg ← canonicalize r.body
  .ok (Crypto.sha256Hex msg)

/-- A record can be hashed when its texts can be encoded. -/
theorem canonical_body_iff {r : DelegationRecord} :
    Canonical r.body ↔ Clean r.recordId ∧ Clean r.credentialId ∧ Clean r.subject ∧ (∀ s ∈ r.scope, Clean s) ∧
      (∀ p ∈ r.parentRecordHash, Clean p) ∧ Clean r.decision ∧ (∀ c ∈ r.requestedCapability, Clean c) ∧
      (∀ e ∈ r.effectiveScope, ∀ s ∈ e, Clean s) ∧ ∀ d ∈ r.denialReason, Clean d := by
  have hatt : Clean r.callerAttestation.text := by
    cases r.callerAttestation <;> exact clean_lit _
  by_cases hd : r.decision = lit "allow" <;> cases hc : r.requestedCapability <;> cases he : r.effectiveScope <;>
    cases hr : r.denialReason <;> simp [body, hd, hc, he, hr, optField, hatt]

theorem exists_recordHash [Interp] [Crypto] {r : DelegationRecord} (h : Canonical r.body) :
    ∃ hash, r.recordHash = .ok hash ∧ Clean hash := by
  obtain ⟨msg, hmsg⟩ := (exists_canonicalize_iff (ε := CA2AError)).mpr h
  exact ⟨Crypto.sha256Hex msg, by rw [recordHash, hmsg]; rfl, clean_hex _⟩

end DelegationRecord

/-- `record_for` -/
def recordFor (credential : DelegationCredential) (recordId : Str) (parentRecordHash : Option Str)
    (callerAttestation : CallerAttestation) : DelegationRecord where
  recordId := recordId
  credentialId := credential.credentialId
  subject := credential.subject
  scope := credential.scope
  parentRecordHash := parentRecordHash
  callerAttestation := callerAttestation

/-- The record of a credential that can be signed can be hashed when what the caller adds can be encoded. -/
theorem canonical_recordFor {credential : DelegationCredential} (hc : Canonical credential.body) {recordId : Str}
    (hid : Clean recordId) {parentRecordHash : Option Str} (hparent : ∀ p ∈ parentRecordHash, Clean p)
    (callerAttestation : CallerAttestation) :
    Canonical (recordFor credential recordId parentRecordHash callerAttestation).body := by
  obtain ⟨hcred, _, hsubject, hscope, _⟩ := DelegationCredential.canonical_body_iff.mp hc
  exact DelegationRecord.canonical_body_iff.mpr
    ⟨hid, hcred, hsubject, hscope, hparent, clean_lit _, by simp [recordFor], by simp [recordFor], by simp [recordFor]⟩

/-- `denial_record_for` -/
def denialRecordFor (credential : DelegationCredential) (recordId : Str) (parentRecordHash : Option Str)
    (requestedCapability : Str) (effectiveScope : Finset Str) (reason : Str) (callerAttestation : CallerAttestation) :
    DelegationRecord where
  recordId := recordId
  credentialId := credential.credentialId
  subject := credential.subject
  scope := credential.scope
  parentRecordHash := parentRecordHash
  decision := lit "deny"
  requestedCapability := some requestedCapability
  effectiveScope := some effectiveScope
  denialReason := some reason
  callerAttestation := callerAttestation

end Ca2a
