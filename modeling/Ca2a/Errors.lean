/-
`ca2a_runtime.errors`: the error classes, and the record an error may carry.

Every error of the runtime is a `CA2AError`; anything else that leaves a
function is an exception of Python or of a library (`Py.Raised.builtin`). A refusal
carries the provenance record of the refused hop (`DelegationRecord`, whose
functions are in `Ca2a.Provenance`).
-/
import Ca2a.Py.Except
import Ca2a.Py.Repr

namespace Ca2a

open Py

/-- `CALLER_ATTESTATION_VALUES`: what a callee learned about the caller's runtime. A record
cannot be built with another value. -/
inductive CallerAttestation
  | notOffered
  | failed
  | softwareOnly
  | hardware
  deriving DecidableEq, Repr

def CallerAttestation.text : CallerAttestation → Str
  | .notOffered => lit "not_offered"
  | .failed => lit "failed"
  | .softwareOnly => lit "software-only"
  | .hardware => lit "hardware"

/-- `DelegationRecord` -/
structure DelegationRecord where
  recordId : Str
  credentialId : Str
  subject : Str
  scope : Finset Str
  parentRecordHash : Option Str := none
  decision : Str := lit "allow"
  requestedCapability : Option Str := none
  effectiveScope : Option (Finset Str) := none
  denialReason : Option Str := none
  callerAttestation : CallerAttestation := .notOffered
  deriving DecidableEq

/-- The classes of `CA2AError` the modelled functions raise. -/
inductive ErrorClass
  | configError
  | invalidCredential
  | untrustedDelegationRoot
  | scopeEscalation
  | brokenDelegationLink
  | delegationDepthExceeded
  | credentialReplay
  | credentialNotYetValid
  | credentialExpired
  | credentialRevoked
  | revocationStatusUnknown
  | invalidRevocation
  | holderProofInvalid
  | attestationFailed
  | sealedChannelError
  | provenanceLinkBroken
  | traceDigestUnsupported
  | scopeNotPermitted
  | transportError
  | traceRecordInvalid
  | responseAuthenticationFailed
  deriving DecidableEq, Repr

def ErrorClass.code : ErrorClass → Str
  | .configError => lit "CONFIG_ERROR"
  | .invalidCredential => lit "INVALID_CREDENTIAL"
  | .untrustedDelegationRoot => lit "UNTRUSTED_DELEGATION_ROOT"
  | .scopeEscalation => lit "SCOPE_ESCALATION"
  | .brokenDelegationLink => lit "BROKEN_DELEGATION_LINK"
  | .delegationDepthExceeded => lit "DELEGATION_DEPTH_EXCEEDED"
  | .credentialReplay => lit "CREDENTIAL_REPLAY"
  | .credentialNotYetValid => lit "CREDENTIAL_NOT_YET_VALID"
  | .credentialExpired => lit "CREDENTIAL_EXPIRED"
  | .credentialRevoked => lit "CREDENTIAL_REVOKED"
  | .revocationStatusUnknown => lit "REVOCATION_STATUS_UNKNOWN"
  | .invalidRevocation => lit "INVALID_REVOCATION"
  | .holderProofInvalid => lit "HOLDER_PROOF_INVALID"
  | .attestationFailed => lit "ATTESTATION_FAILED"
  | .sealedChannelError => lit "SEALED_CHANNEL_ERROR"
  | .provenanceLinkBroken => lit "PROVENANCE_LINK_BROKEN"
  | .traceDigestUnsupported => lit "TRACE_DIGEST_UNSUPPORTED"
  | .scopeNotPermitted => lit "SCOPE_NOT_PERMITTED"
  | .transportError => lit "TRANSPORT_ERROR"
  | .traceRecordInvalid => lit "TRACE_RECORD_INVALID"
  | .responseAuthenticationFailed => lit "RESPONSE_AUTHENTICATION_FAILED"

def ErrorClass.httpStatus : ErrorClass → Nat
  | .configError => 500
  | .invalidCredential => 400
  | .untrustedDelegationRoot => 403
  | .scopeEscalation => 403
  | .brokenDelegationLink => 409
  | .delegationDepthExceeded => 403
  | .credentialReplay => 409
  | .credentialNotYetValid => 403
  | .credentialExpired => 403
  | .credentialRevoked => 403
  | .revocationStatusUnknown => 503
  | .invalidRevocation => 400
  | .holderProofInvalid => 401
  | .attestationFailed => 412
  | .sealedChannelError => 500
  | .provenanceLinkBroken => 409
  | .traceDigestUnsupported => 501
  | .scopeNotPermitted => 403
  | .transportError => 400
  | .traceRecordInvalid => 422
  -- inherited from `TransportError`
  | .responseAuthenticationFailed => 400

/-- `CA2AError`. Only `AttestationFailed` and `ScopeNotPermitted` are raised with a record. -/
structure CA2AError where
  cls : ErrorClass
  message : Str
  detail : Option Str := none
  record : Option DelegationRecord := none

/-- Every status an error is answered with is one a denial may have. -/
theorem ErrorClass.httpStatus_range (c : ErrorClass) : 400 ≤ c.httpStatus ∧ c.httpStatus ≤ 599 := by
  cases c <;> decide

abbrev Exc := Raised CA2AError

/-- What a function of the runtime returns or raises. -/
abbrev Result (α : Type) := Except Exc α

/-- `raise Cls(message, detail=detail)` -/
def raise {α : Type} (cls : ErrorClass) (message : Str) (detail : Option Str := none) : Result α :=
  .error (.app { cls, message, detail })

/-- `str(exc)` -/
def excText : Exc → Str
  | .builtin _ text => text
  | .app e => e.message

/-- The exception is one of the runtime's own. -/
def Exc.isCA2A : Exc → Prop
  | .builtin _ _ => False
  | .app _ => True

/-- The exception is of this class. -/
def Exc.isClass (c : ErrorClass) : Exc → Prop
  | .builtin _ _ => False
  | .app e => e.cls = c

@[simp] theorem raise_ne_ok {α : Type} {cls : ErrorClass} {m : Str} {d : Option Str} {a : α} :
    raise cls m d ≠ .ok a := by
  simp [raise]

/-- `except (…) as exc`, for classes the runtime does not define; the handler sees the text. -/
def catchBuiltin {α : Type} (kinds : ExcKind → Bool) (x : Result α) (handler : Str → Result α) : Result α :=
  match x with
  | .error (.builtin k t) => if kinds k then handler t else .error (.builtin k t)
  | r => r

/-- `except Cls as exc`, for one class of the runtime's errors. -/
def catchClass {α : Type} (cls : ErrorClass) (x : Result α) (handler : CA2AError → Result α) : Result α :=
  match x with
  | .error (.app e) => if e.cls = cls then handler e else .error (.app e)
  | r => r

/-- `except Exception as exc` -/
def catchAny {α : Type} (x : Result α) (handler : Str → Result α) : Result α :=
  match x with
  | .error e => handler (excText e)
  | r => r

/-! ## What a handler lets through -/

section
variable {α : Type} {x : Result α} {kinds : ExcKind → Bool} {handler : Str → Result α}

theorem catchBuiltin_ok_iff (hh : ∀ t a, handler t ≠ .ok a) {a : α} :
    catchBuiltin kinds x handler = .ok a ↔ x = .ok a := by
  unfold catchBuiltin
  split
  · split <;> simp [hh]
  · exact Iff.rfl

/-- What is caught is answered by the handler, anything else goes through. -/
theorem catchBuiltin_spec {post : α → Prop} {exc : Exc → Prop}
    (h : Spec x post fun e => exc e ∨ ∃ k t, e = .builtin k t ∧ kinds k = true)
    (hh : ∀ t, Spec (handler t) post exc) : Spec (catchBuiltin kinds x handler) post exc := by
  cases x with
  | ok a => exact h
  | error e =>
    cases e with
    | app e =>
      rcases h with h | ⟨k, t, he, _⟩
      · exact h
      · cases he
    | builtin k t =>
      simp only [catchBuiltin]
      split
      · exact hh t
      · rename_i hk
        rcases h with h | ⟨k, t, he, hk'⟩
        · exact h
        · cases he
          exact absurd hk' hk

theorem catchClass_spec {cls : ErrorClass} {handler : CA2AError → Result α} {post : α → Prop} {exc : Exc → Prop}
    (h : Spec x post fun e => exc e ∨ e.isClass cls) (hh : ∀ e, Spec (handler e) post exc) :
    Spec (catchClass cls x handler) post exc := by
  cases x with
  | ok a => exact h
  | error e =>
    cases e with
    | builtin k t =>
      rcases h with h | h
      · exact h
      · exact h.elim
    | app e =>
      simp only [catchClass]
      split
      · exact hh e
      · rename_i hne
        rcases h with h | h
        · exact h
        · exact absurd h hne

theorem catchAny_ok_iff (hh : ∀ t a, handler t ≠ .ok a) {a : α} : catchAny x handler = .ok a ↔ x = .ok a := by
  cases x <;> simp [catchAny, hh]

theorem catchClass_ok_iff {cls : ErrorClass} {handler : CA2AError → Result α} (hh : ∀ e a, handler e ≠ .ok a)
    {a : α} : catchClass cls x handler = .ok a ↔ x = .ok a := by
  unfold catchClass
  split
  · split <;> simp [hh]
  · exact Iff.rfl

end

end Ca2a
