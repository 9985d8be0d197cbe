/-
`ca2a_verify.verify`: the offline verification of a chain document.
-/
import Ca2a.WireForms

namespace Ca2a

open Py

/-- `ChainResult` -/
structure ChainResult where
  hops : Nat
  rootIssuer : Str
  leafSubject : Str
  leafScope : List Str
  revocationChecked : Bool := false
  revocationAsOf : Option Nat := none
  deriving DecidableEq

section
variable [Interp]

/-- `_parse_chain` -/
def parseChain (data : Json) : Result (List DelegationCredential) :=
  let hops := match data with
    | .obj d => (Dict.get? d (lit "chain")).getD data
    | _ => data
  match hops with
  | .arr items => items.mapM DelegationCredential.fromDict
  | _ => raise .invalidCredential (lit "chain document must be a list or \x7b\"chain\": [...]\x7d")

variable [Crypto]

/-- `verify_delegation_chain`. `clock` is what the clock gives, read when `at_time` is `None`. -/
def verifyDelegationChain (chain : List DelegationCredential) (trustedRootIssuers : Finset Str) (maxDepth : Int)
    (atTime : Option Int) (clock : Int) (revocations : Option RevocationSnapshot) (maxRevocationStaleness : Option Int) :
    Result ChainResult := do
  let status ← verifyChain chain maxDepth trustedRootIssuers atTime clock revocations maxRevocationStaleness
  match chain.head?, chain.getLast? with
  | some root, some leaf =>
    .ok
      { hops := chain.length
        rootIssuer := root.issuer
        leafSubject := leaf.subject
        leafScope := sortedStrs leaf.scope
        revocationChecked := status.checked
        revocationAsOf := status.asOf }
  | _, _ => .error (.builtin .indexError (lit "list index out of range"))

omit [Crypto] in
theorem contained_parseChain (data : Json) : Contained (parseChain data) := by
  unfold parseChain
  dsimp only
  split
  · exact Spec.mapM fun item _ => contained_of_isClass (DelegationCredential.fromDict_spec item)
  · exact contained_raise _ _ _

/-- A chain that is verified is not empty, so the subscripts do not fail. -/
theorem contained_verifyDelegationChain (chain : List DelegationCredential) (trusted : Finset Str) (maxDepth : Int)
    {atTime : Option Int} (clock : Int) (revocations : Option RevocationSnapshot) {staleness : Option Int}
    (ht : ∀ t ∈ atTime, 0 ≤ t) (hs : ∀ s ∈ staleness, 0 ≤ s) :
    Contained (verifyDelegationChain chain trusted maxDepth atTime clock revocations staleness) := by
  refine contained_bind_iff.mpr ⟨contained_verifyChain_iff.mpr ⟨ht, hs⟩, fun status h => ?_⟩
  cases chain with
  | nil =>
    exact absurd rfl (exists_verifyChain_iff.mp ⟨status, h⟩).2.2.nonempty
  | cons root rest =>
    rw [List.head?_cons, List.getLast?_cons]
    exact contained_ok _

end

end Ca2a
