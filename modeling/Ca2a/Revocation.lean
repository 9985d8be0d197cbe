/-
`ca2a_runtime.delegation.revocation`: signed statements that withdraw a
credential, and the snapshot a verifier holds of them.

A snapshot is refused as a whole unless every statement in it verifies, so
that is a field of the structure. `effectiveRevocation` looks statements up
through the digest index the constructor builds; `effectiveRevocation_eq`
says that this is a search of the statements in order.
-/
import Ca2a.Credential

namespace Ca2a

open Py

/-- `REVOCATION_TYPE` -/
def revocationType : Str := lit "ca2a.delegation-revocation.v1"

/-- `sha256:[0-9a-f]{64}`, matched in full. -/
def isDigest (s : Str) : Bool := (lit "sha256:").isPrefixOf s && isLowerHex 64 (s.drop (lit "sha256:").length)

/-- `credential_digest` -/
def credentialDigest [Interp] [Crypto] (c : DelegationCredential) : Result Str := do
  let msg ← canonicalize c.body
  .ok (lit "sha256:" ++ Crypto.sha256Hex msg)

/-- `RevocationStatement` -/
structure RevocationStatement where
  revokedDigest : Str
  revoker : Str
  issuedAt : Nat
  signature : Str := []
  digestOk : isDigest revokedDigest = true
  revokerOk : isLowerHex 64 revoker = true
  deriving DecidableEq

namespace RevocationStatement

/-- `RevocationStatement.body` -/
def body (s : RevocationStatement) : Json :=
  .obj [(lit "type", .str revocationType), (lit "revoked_digest", .str s.revokedDigest),
    (lit "revoker", .str s.revoker), (lit "issued_at", .int s.issuedAt)]

variable [Interp] [Crypto]

/-- `RevocationStatement.sign` -/
def sign (s : RevocationStatement) (privateKey : Crypto.EdKey) : Result RevocationStatement := do
  let expected := hex (Crypto.edPublic privateKey)
  if expected ≠ s.revoker then
    raise .invalidRevocation (lit "signing key does not match revoker")
      (some (lit "revoker=" ++ s.revoker ++ lit " key=" ++ expected))
  else
    let msg ← canonicalize s.body
    .ok { s with signature := hex (Crypto.edSign privateKey msg) }

/-- `RevocationStatement.verify_signature` -/
def verifySignature (s : RevocationStatement) : Result Unit :=
  if s.signature = [] then raise .invalidRevocation (lit "revocation statement is unsigned")
  else if isLowerHex 128 s.signature = false then
    raise .invalidRevocation (lit "signature must be a lowercase 64-byte Ed25519 signature in hex")
  else
    catchBuiltin signatureErrors (edCheck s.revoker s.signature s.body) fun t =>
      raise .invalidRevocation (lit "revocation signature failed to verify") (some t)

end RevocationStatement

/-! ## Snapshots -/

/-- `RevocationSnapshot` -/
structure RevocationSnapshot [Interp] [Crypto] where
  asOf : Nat
  statements : List RevocationStatement := []
  verified : ∀ s ∈ statements, s.verifySignature = .ok ()

/-- `index.setdefault(stmt.revoked_digest, []).append(stmt)`, for each statement in order. -/
def byDigest (statements : List RevocationStatement) : Dict (List RevocationStatement) :=
  statements.foldl (fun d s => Dict.set d s.revokedDigest ((Dict.get? d s.revokedDigest).getD [] ++ [s])) []

theorem byDigest_get? (statements : List RevocationStatement) (digest : Str) :
    ((byDigest statements).get? digest).getD [] = statements.filter (·.revokedDigest = digest) := by
  suffices h : ∀ d : Dict (List RevocationStatement),
      ((statements.foldl (fun d s => Dict.set d s.revokedDigest ((Dict.get? d s.revokedDigest).getD [] ++ [s])) d).get?
        digest).getD [] = (d.get? digest).getD [] ++ statements.filter (·.revokedDigest = digest) by
    simpa [byDigest] using h []
  induction statements with
  | nil => simp
  | cons s l ih =>
    intro d
    rw [List.foldl_cons, ih]
    by_cases hs : s.revokedDigest = digest
    · subst hs
      simp [Dict.get?_set_self]
    · rw [Dict.get?_set_other _ _ (Ne.symm hs)]
      simp [hs]

namespace RevocationSnapshot
variable [Interp] [Crypto]

/-- The statement is in force at the time, if one is given, and made by an authority. -/
def inForce (authorized : Finset Str) (atTime : Option Int) (s : RevocationStatement) : Bool :=
  s.revoker ∈ authorized && (match atTime with | none => true | some t => decide ((s.issuedAt : Int) ≤ t))

/-- `RevocationSnapshot.effective_revocation` -/
def effectiveRevocation (snap : RevocationSnapshot) (digest : Str) (authorized : Finset Str) (atTime : Option Int) :
    Option RevocationStatement :=
  (((byDigest snap.statements).get? digest).getD []).find? (inForce authorized atTime)

/-- Looking a statement up through the index is searching the statements in order. -/
theorem effectiveRevocation_eq (snap : RevocationSnapshot) (digest : Str) (authorized : Finset Str)
    (atTime : Option Int) :
    snap.effectiveRevocation digest authorized atTime =
      snap.statements.find? fun s => decide (s.revokedDigest = digest) && inForce authorized atTime s := by
  rw [effectiveRevocation, byDigest_get?, List.find?_filter]
  simp

/-- A statement of the snapshot revokes the digest under this authority. -/
def Revokes (snap : RevocationSnapshot) (digest : Str) (authorized : Finset Str) (atTime : Option Int) : Prop :=
  ∃ s ∈ snap.statements, s.revokedDigest = digest ∧ s.revoker ∈ authorized ∧ ∀ t ∈ atTime, (s.issuedAt : Int) ≤ t

omit [Interp] [Crypto] in
theorem inForce_iff {authorized : Finset Str} {atTime : Option Int} {s : RevocationStatement} :
    inForce authorized atTime s = true ↔ s.revoker ∈ authorized ∧ ∀ t ∈ atTime, (s.issuedAt : Int) ≤ t := by
  cases atTime <;> simp [inForce]

theorem effectiveRevocation_none_iff {snap : RevocationSnapshot} {digest : Str} {authorized : Finset Str}
    {atTime : Option Int} :
    snap.effectiveRevocation digest authorized atTime = none ↔ ¬ snap.Revokes digest authorized atTime := by
  rw [effectiveRevocation_eq, List.find?_eq_none, Revokes]
  simp only [Bool.and_eq_true, decide_eq_true_eq, inForce_iff, not_exists, not_and]

end RevocationSnapshot

/-- `RevocationStatus` -/
structure RevocationStatus where
  checked : Bool
  asOf : Option Nat := none
  deriving DecidableEq

/-- `REVOCATION_NOT_CHECKED` -/
def revocationNotChecked : RevocationStatus := { checked := false }

end Ca2a
