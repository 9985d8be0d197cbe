/-
What a refusal tells the caller.

An error that carries a provenance record says what the callee would have
permitted. `RecordFree` computations raise none; everything up to the
holder check is one of these, and reads nothing of the configuration that
authorization depends on. The records of the later steps are all the denial
record of the leaf (`DeniesLeaf`).
-/
import Ca2a.PeerFacts

namespace Ca2a

open Py

/-- `getattr(exc, "record", None)` -/
def Exc.record? : Exc → Option DelegationRecord
  | .builtin _ _ => none
  | .app e => e.record

/-- Whatever the computation raises carries no record. -/
def RecordFree {α : Type} (x : Result α) : Prop := Spec x (fun _ => True) fun e => e.record? = none

/-! ## Computations that raise no record -/

section
variable {α β : Type} {x : Result α}

@[simp] theorem recordFree_ok (a : α) : RecordFree (.ok a) := trivial

@[simp] theorem recordFree_builtin (k : ExcKind) (t : Str) : RecordFree (.error (.builtin k t) : Result α) := rfl

@[simp] theorem recordFree_raise (cls : ErrorClass) (m : Str) (d : Option Str) : RecordFree (raise cls m d : Result α) := rfl

theorem RecordFree.bind {f : α → Result β} (h : RecordFree x) (hf : ∀ a, RecordFree (f a)) : RecordFree (x >>= f) :=
  Spec.bind h fun a _ => hf a

theorem recordFree_ite {c : Prop} [Decidable c] {y : Result α} (hx : RecordFree x) (hy : RecordFree y) :
    RecordFree (if c then x else y) := by
  split
  · exact hx
  · exact hy

theorem RecordFree.catchBuiltin {kinds : ExcKind → Bool} {handler : Str → Result α} (h : RecordFree x)
    (hh : ∀ t, RecordFree (handler t)) : RecordFree (catchBuiltin kinds x handler) :=
  catchBuiltin_spec (h.mono (fun _ ha => ha) fun _ he => .inl he) hh

theorem RecordFree.catchClass {cls : ErrorClass} {handler : CA2AError → Result α} (h : RecordFree x)
    (hh : ∀ e, RecordFree (handler e)) : RecordFree (catchClass cls x handler) :=
  catchClass_spec (h.mono (fun _ ha => ha) fun _ he => .inl he) hh

end

section
variable [Interp]

theorem recordFree_utf8 (s : Str) : RecordFree (utf8 s) := utf8_spec (fun _ => rfl) s

theorem recordFree_fromHex (s : Str) : RecordFree (fromHex s) := fromHex_spec (fun _ => rfl) s

theorem recordFree_canonicalize (j : Json) : RecordFree (canonicalize j) := canonicalize_raises (fun _ _ => rfl) j

variable [Crypto]

theorem recordFree_edCheck (key sig : Str) (body : Json) : RecordFree (edCheck key sig body) := by
  refine (recordFree_fromHex key).bind fun pub => ?_
  split
  · simp
  · refine (recordFree_fromHex sig).bind fun s => (recordFree_canonicalize body).bind fun msg => ?_
    exact recordFree_ite (recordFree_ok _) (recordFree_builtin _ _)

/-! ## The chain -/

theorem recordFree_checkHop (maxDepth now : Int) (i : Nat) (seen : Finset Str) (prev : Option DelegationCredential)
    (c : DelegationCredential) : RecordFree (checkHop maxDepth now i seen prev c) := by
  have hsig : RecordFree c.verifySignature :=
    recordFree_ite (recordFree_raise _ _ _) ((recordFree_edCheck _ _ _).catchBuiltin fun _ => recordFree_raise _ _ _)
  have hwindow : RecordFree (checkWindow now i c) := by
    unfold checkWindow
    split
    · exact recordFree_raise _ _ _
    · split <;> simp
  have hlink : RecordFree (checkLink i c prev) := by
    unfold checkLink
    repeat' split
    all_goals simp
  exact hsig.bind fun _ => hwindow.bind fun _ =>
    recordFree_ite (recordFree_raise _ _ _) (recordFree_ite (recordFree_raise _ _ _) hlink)

theorem recordFree_verifyHops (maxDepth now : Int) (i : Nat) (seen : Finset Str) (prev : Option DelegationCredential)
    (l : List DelegationCredential) : RecordFree (verifyHops maxDepth now i seen prev l) := by
  induction l generalizing i seen prev with
  | nil => exact recordFree_ok _
  | cons c l ih => exact (recordFree_checkHop _ _ _ _ _ _).bind fun _ => ih _ _ _

theorem recordFree_checkHops (snap : RevocationSnapshot) (atTime : Option Int) (i : Nat) (auth : Finset Str)
    (l : List DelegationCredential) : RecordFree (checkHops snap atTime i auth l) := by
  induction l generalizing i auth with
  | nil => exact recordFree_ok _
  | cons c l ih =>
    refine ((recordFree_canonicalize _).bind fun _ => recordFree_ok _).bind fun digest => ?_
    split
    · exact recordFree_raise _ _ _
    · exact ih _ _

theorem recordFree_verifyChain (chain : List DelegationCredential) (maxDepth : Int) (trusted : Finset Str)
    (atTime : Option Int) (clock : Int) (revocations : Option RevocationSnapshot) (staleness : Option Int) :
    RecordFree (verifyChain chain maxDepth trusted atTime clock revocations staleness) := by
  refine recordFree_ite (recordFree_builtin _ _) (recordFree_ite (recordFree_builtin _ _) ?_)
  cases chain with
  | nil => exact recordFree_raise _ _ _
  | cons root rest =>
    refine recordFree_ite (recordFree_raise _ _ _) ((recordFree_verifyHops _ _ _ _ _ _).bind fun _ => ?_)
    unfold checkRevocation
    split
    · split <;> simp
    · refine (recordFree_checkHops _ _ _ _ _).bind fun _ => ?_
      split <;> simp

/-! ## The holder, the offer, the payload -/

theorem recordFree_verifyChallenge (secret : Bytes) (challenge : Str) (now : Int) :
    RecordFree (verifyChallenge secret challenge now) := by
  unfold verifyChallenge
  split
  · refine recordFree_ite (recordFree_raise _ _ _) (recordFree_ite (recordFree_raise _ _ _) ?_)
    split
    · exact recordFree_raise _ _ _
    · refine ((recordFree_utf8 _).bind fun _ => recordFree_ok _).bind fun _ => ?_
      exact recordFree_ite (recordFree_raise _ _ _) (recordFree_ite (recordFree_raise _ _ _) (recordFree_ok _))
  · exact recordFree_raise _ _ _

theorem recordFree_verifyCallerHoldsLeaf (request : PeerRequest) (leaf : DelegationCredential) (config : PeerConfig)
    (now : Int) : RecordFree (verifyCallerHoldsLeaf request leaf config now) := by
  unfold verifyCallerHoldsLeaf
  split
  · exact recordFree_raise _ _ _
  · split
    · refine ((recordFree_verifyChallenge _ _ _).catchClass fun _ => recordFree_raise _ _ _).bind fun _ => ?_
      exact (recordFree_edCheck _ _ _).catchBuiltin fun _ => recordFree_raise _ _ _
    · exact recordFree_raise _ _ _

theorem recordFree_verifyCallerPossession (possession : Option CallerPossession) (key : Crypto.XKey)
    (transcript : Dict Json) : RecordFree (verifyCallerPossession possession key transcript) :=
  verifyCallerPossession_raises (fun _ _ => rfl) (fun _ _ => rfl) possession key transcript

/-- A verifier that returns a measurement or raises `AttestationFailed` without a record. -/
def Verifier.Plain (verify : Verifier) : Prop :=
  ∀ report nonce, Spec (verify report nonce) (fun _ => True) fun e => e.isClass .attestationFailed ∧ e.record? = none

/-- A policy whose errors, if it raises any, carry no record. -/
def Policy.Plain (policy : Policy) : Prop := ∀ scope, RecordFree (policy scope)

omit [Crypto] in
theorem recordFree_verifyOffer {offer : ChannelOffer} {nonce : Str} {verifier : Option Verifier} {hardware : Bool}
    {role : Str} (hv : ∀ verify ∈ verifier, verify.Plain) : RecordFree (verifyOffer offer nonce verifier hardware role) := by
  unfold verifyOffer
  refine recordFree_ite (recordFree_raise _ _ _) (recordFree_ite (recordFree_raise _ _ _)
    (recordFree_ite (recordFree_raise _ _ _) (recordFree_ite
      (recordFree_ite (recordFree_raise _ _ _) (recordFree_ok _)) ?_)))
  cases verifier with
  | none => exact recordFree_raise _ _ _
  | some verify =>
    exact RecordFree.bind ((hv verify rfl _ _).mono (fun _ ha => ha) fun _ he => he.2) fun _ => recordFree_ok _

theorem recordFree_openPayload (config : PeerConfig) (sealed : Option Bytes) :
    RecordFree (openPayload config sealed).result := by
  cases sealed with
  | none => exact recordFree_ok _
  | some blob =>
    cases hk : config.enclavePrivateKey with
    | none => simp [openPayload, hk]
    | some key =>
      simp only [openPayload, hk, Traced.bind_result, Traced.step_result]
      refine RecordFree.bind (recordFree_ite (recordFree_raise _ _ _) (RecordFree.catchBuiltin ?_ fun _ =>
        recordFree_raise _ _ _)) fun _ => recordFree_ok _
      refine RecordFree.bind (exchangeKey_spec (fun _ => rfl) _ _) fun _ => ?_
      dsimp only
      split <;> simp

/-! ## What is hidden and what is recorded -/

/-- A record the error carries is the denial record of the leaf under this effective scope. -/
def DeniesLeaf (request : PeerRequest) (leaf : DelegationCredential) (effective : Finset Str) (e : Exc) : Prop :=
  ∀ record ∈ e.record?, ∃ reason att, record =
    denialRecordFor leaf request.recordId request.parentRecordHash request.requestedCapability effective reason att

omit [Interp] [Crypto] in
theorem RecordFree.deniesLeaf {α : Type} {x : Result α} (h : RecordFree x) (request : PeerRequest)
    (leaf : DelegationCredential) (effective : Finset Str) :
    Spec x (fun _ => True) (DeniesLeaf request leaf effective) := by
  refine h.mono (fun _ ha => ha) fun e he record hr => ?_
  rw [he] at hr
  cases hr

omit [Interp] [Crypto] in
theorem refuse_deniesLeaf {α : Type} (request : PeerRequest) (leaf : DelegationCredential) (effective : Finset Str)
    (reason : Str) (outcome : CallerAttestation) (detail : Option Str) :
    Spec (refuse request leaf effective reason outcome detail : Result α) (fun _ => True)
      (DeniesLeaf request leaf effective) := by
  rintro _ ⟨⟩
  exact ⟨reason, outcome, rfl⟩

theorem appraiseOffer_deniesLeaf (request : PeerRequest) (leaf : DelegationCredential) (effective : Finset Str)
    (config : PeerConfig) (offer : ChannelOffer) (now : Int) (hv : ∀ verify ∈ config.callerVerifier, verify.Plain) :
    Spec (appraiseOffer request leaf effective config offer now) (fun _ => True) (DeniesLeaf request leaf effective) := by
  have caught : ∀ {α : Type} {x : Result α}, RecordFree x →
      Spec x (fun _ => True) fun e => DeniesLeaf request leaf effective e ∨ e.isClass .attestationFailed := by
    intro α x hx
    exact (hx.deniesLeaf request leaf effective).mono (fun _ ha => ha) fun _ he => .inl he
  unfold appraiseOffer
  split
  · exact refuse_deniesLeaf _ _ _ _ _ _
  · refine (catchClass_spec (caught ?_) fun _ => refuse_deniesLeaf _ _ _ _ _ _).bind fun peer _ => ?_
    · exact (recordFree_verifyChallenge _ _ _).bind fun _ => recordFree_verifyOffer hv
    · split
      · exact refuse_deniesLeaf _ _ _ _ _ _
      · refine (catchClass_spec (caught ?_) fun _ => refuse_deniesLeaf _ _ _ _ _ _).bind fun _ _ => trivial
        exact recordFree_verifyCallerPossession _ _ _

theorem appraiseCallerRuntime_deniesLeaf (request : PeerRequest) (leaf : DelegationCredential) (effective : Finset Str)
    (config : PeerConfig) (now : Int) (hv : ∀ verify ∈ config.callerVerifier, verify.Plain) :
    Spec (appraiseCallerRuntime request leaf effective config now) (fun _ => True) (DeniesLeaf request leaf effective) := by
  unfold appraiseCallerRuntime
  dsimp only
  split
  · exact (recordFree_raise _ _ _).deniesLeaf _ _ _
  · split
    · split
      · exact refuse_deniesLeaf _ _ _ _ _ _
      · split
        · exact trivial
        · exact refuse_deniesLeaf _ _ _ _ _ _
    · refine (appraiseOffer_deniesLeaf _ _ _ _ _ _ hv).bind fun peer _ => ?_
      generalize (if peer.assurance = .hardware then CallerAttestation.hardware else .softwareOnly) = outcome
      split
      · exact refuse_deniesLeaf _ _ _ _ _ _
      · exact trivial

omit [Crypto] in
theorem decideCapability_deniesLeaf (request : PeerRequest) (leaf : DelegationCredential) (effective : Finset Str)
    (att : CallerAttestation) :
    Spec (decideCapability leaf request.requestedCapability effective request.recordId request.parentRecordHash att)
      (fun _ => True) (DeniesLeaf request leaf effective) := by
  unfold decideCapability
  split
  · rintro _ ⟨⟩
    exact ⟨_, att, rfl⟩
  · exact trivial

/-- The chain verifies. -/
def ChainVerifies (request : PeerRequest) (config : PeerConfig) (clock : Readings) : Prop :=
  ∃ st, verifyChain request.chain config.maxDepth config.trustedRootIssuers none clock.chain config.revocations
    config.maxRevocationStaleness = .ok st

/-- The holder proof, when it is required, verifies for the leaf. -/
def HolderVerifies (request : PeerRequest) (config : PeerConfig) (clock : Readings) (leaf : DelegationCredential) : Prop :=
  config.requireHolderProof = true → verifyCallerHoldsLeaf request leaf config clock.holder = .ok ()

/-- The configurations differ in what authorization depends on, and in nothing else. -/
def SameAuthentication (config config' : PeerConfig) : Prop :=
  config' = { config with
    policy := config'.policy
    callerVerifier := config'.callerVerifier
    requireCallerAttestation := config'.requireCallerAttestation
    enclavePrivateKey := config'.enclavePrivateKey }

/-- The steps before authorization. -/
def authenticate (request : PeerRequest) (config : PeerConfig) (clock : Readings) :
    Traced PeerStep Exc (RevocationStatus × DelegationCredential) := do
  let revocation ← .step .verifyChain (verifyChain request.chain config.maxDepth config.trustedRootIssuers none
    clock.chain config.revocations config.maxRevocationStaleness)
  let leaf ← .lift (chainLeaf request.chain)
  holderStep request leaf config clock.holder
  pure (revocation, leaf)

/-- The steps from the policy on. -/
def authorize (request : PeerRequest) (config : PeerConfig) (clock : Readings)
    (caller : RevocationStatus × DelegationCredential) : Traced PeerStep Exc PeerResult := do
  let effective ← .step .intersect (config.policy caller.2.scope)
  let callerAttestation ← .step .appraiseCallerRuntime (appraiseCallerRuntime request caller.2 effective config
    clock.appraisal)
  let decision ← .step .decideCapability (decideCapability caller.2 request.requestedCapability effective
    request.recordId request.parentRecordHash callerAttestation)
  let payload ← openPayload config request.sealedPayload
  pure
    { effectiveScope := decision.effectiveScope
      grantedCapability := decision.grantedCapability
      record := decision.record
      payload := payload
      callerAttestation := callerAttestation
      revocation := caller.1 }

theorem handlePeerRequest_eq (request : PeerRequest) (config : PeerConfig) (clock : Readings) :
    handlePeerRequest request config clock = authenticate request config clock >>= authorize request config clock := by
  simp only [handlePeerRequest, authenticate, authorize, Traced.bind_assoc, Traced.pure_bind]

theorem authenticate_ok_iff {request : PeerRequest} {config : PeerConfig} {clock : Readings}
    {st : RevocationStatus} {leaf : DelegationCredential} :
    (authenticate request config clock).result = .ok (st, leaf) ↔
      verifyChain request.chain config.maxDepth config.trustedRootIssuers none clock.chain config.revocations
        config.maxRevocationStaleness = .ok st ∧
      request.chain.getLast? = some leaf ∧ HolderVerifies request config clock leaf := by
  simp only [authenticate, Traced.bind_result, Traced.step_result, Traced.lift_result, Traced.pure_result, bind_ok_iff,
    chainLeaf_ok_iff, Except.ok.injEq, Prod.mk.injEq, HolderVerifies, ← holderStep_ok_iff]
  constructor
  · rintro ⟨st, hst, leaf, hleaf, ⟨⟩, hholder, rfl, rfl⟩
    exact ⟨hst, hleaf, hholder⟩
  · rintro ⟨hst, hleaf, hholder⟩
    exact ⟨st, hst, leaf, hleaf, (), hholder, rfl, rfl⟩

theorem recordFree_authenticate (request : PeerRequest) (config : PeerConfig) (clock : Readings) :
    RecordFree (authenticate request config clock).result := by
  simp only [authenticate, Traced.bind_result, Traced.step_result, Traced.lift_result]
  refine (recordFree_verifyChain _ _ _ _ _ _ _).bind fun _ => RecordFree.bind ?_ fun leaf => RecordFree.bind ?_ fun _ =>
    recordFree_ok _
  · unfold chainLeaf
    split <;> simp
  · unfold holderStep
    split
    · rw [Traced.step_result]
      exact recordFree_verifyCallerHoldsLeaf _ _ _ _
    · exact recordFree_ok _

/-- Authentication reads nothing that authorization depends on. -/
theorem authenticate_congr {config config' : PeerConfig} (h : SameAuthentication config config') (request : PeerRequest)
    (clock : Readings) : authenticate request config' clock = authenticate request config clock := by
  rw [SameAuthentication] at h
  rw [h]
  rfl

theorem authorize_deniesLeaf (request : PeerRequest) (config : PeerConfig) (clock : Readings)
    (hv : ∀ verify ∈ config.callerVerifier, verify.Plain) (hp : config.policy.Plain)
    (caller : RevocationStatus × DelegationCredential) :
    Spec (authorize request config clock caller).result (fun _ => True) fun e => ∀ record ∈ e.record?,
      ∃ effective, config.policy caller.2.scope = .ok effective ∧ DeniesLeaf request caller.2 effective e := by
  simp only [authorize, Traced.bind_result, Traced.step_result, Traced.pure_result]
  cases hpol : config.policy caller.2.scope with
  | error e =>
    intro record hr
    rw [(hp _).of_error hpol] at hr
    cases hr
  | ok effective =>
    refine Spec.mono ?_ (fun _ ha => ha) fun e (he : DeniesLeaf request caller.2 effective e) record _ => ⟨effective, rfl, he⟩
    refine (appraiseCallerRuntime_deniesLeaf _ _ _ _ _ hv).bind fun att _ => ?_
    refine (decideCapability_deniesLeaf _ _ _ _).bind fun decision _ => ?_
    exact ((recordFree_openPayload _ _).deniesLeaf _ _ _).bind fun _ _ => trivial

/-- An untrusted root is refused on its issuer alone. -/
theorem verifyChain_untrusted {chain chain' : List DelegationCredential} {root root' : DelegationCredential}
    (h : chain.head? = some root) (h' : chain'.head? = some root') (hissuer : root'.issuer = root.issuer)
    {trusted : Finset Str} (hu : root.issuer ∉ trusted) (maxDepth maxDepth' clock clock' : Int)
    (revocations revocations' : Option RevocationSnapshot) (atTime staleness : Option Int) :
    verifyChain chain maxDepth trusted atTime clock revocations staleness =
      verifyChain chain' maxDepth' trusted atTime clock' revocations' staleness := by
  obtain ⟨rest, rfl⟩ := List.head?_eq_some_iff.mp h
  obtain ⟨rest', rfl⟩ := List.head?_eq_some_iff.mp h'
  simp only [verifyChain, hissuer, hu, not_false_eq_true, if_true]

/-- **An unauthenticated caller learns nothing about authorization.** -/
theorem handlePeerRequest_hides_authorization (request : PeerRequest) (config config' : PeerConfig) (clock : Readings)
    (hsame : SameAuthentication config config') (hv : ∀ verify ∈ config.callerVerifier, verify.Plain)
    (hp : config.policy.Plain) :
    ((¬ ChainVerifies request config clock ∨ ∀ leaf ∈ request.chain.getLast?, ¬ HolderVerifies request config clock leaf) →
      handlePeerRequest request config' clock = handlePeerRequest request config clock ∧
      ∃ e, (handlePeerRequest request config clock).result = .error e ∧ e.record? = none) ∧
    (∀ e record, (handlePeerRequest request config clock).result = .error e → e.record? = some record →
      ChainVerifies request config clock ∧ ∃ leaf, request.chain.getLast? = some leaf ∧
        HolderVerifies request config clock leaf ∧
        ∃ effective reason att, config.policy leaf.scope = .ok effective ∧ record =
          denialRecordFor leaf request.recordId request.parentRecordHash request.requestedCapability effective reason att) ∧
    ∀ chain chain' : List DelegationCredential, ∀ root ∈ chain.head?, ∀ root' ∈ chain'.head?,
      root'.issuer = root.issuer → root.issuer ∉ config.trustedRootIssuers →
      ∀ maxDepth maxDepth' clock clock' revocations revocations' atTime staleness,
        verifyChain chain maxDepth config.trustedRootIssuers atTime clock revocations staleness =
          verifyChain chain' maxDepth' config.trustedRootIssuers atTime clock' revocations' staleness := by
  refine ⟨fun hfail => ?_, fun e record he hr => ?_, ?_⟩
  · -- authentication raises, so nothing after it runs
    obtain ⟨e, he⟩ : ∃ e, (authenticate request config clock).result = .error e := by
      cases hres : (authenticate request config clock).result with
      | error e => exact ⟨e, rfl⟩
      | ok caller =>
        obtain ⟨hst, hleaf, hholder⟩ := authenticate_ok_iff.mp hres
        rcases hfail with hfail | hfail
        · exact absurd ⟨_, hst⟩ hfail
        · exact absurd hholder (hfail _ hleaf)
    rw [handlePeerRequest_eq, handlePeerRequest_eq, authenticate_congr hsame, Traced.bind_of_error he,
      Traced.bind_of_error he]
    exact ⟨rfl, e, rfl, (recordFree_authenticate request config clock).of_error he⟩
  · rw [handlePeerRequest_eq, Traced.bind_result, bind_error_iff] at he
    rcases he with he | ⟨⟨st, leaf⟩, hok, he⟩
    · rw [(recordFree_authenticate request config clock).of_error he] at hr
      cases hr
    · obtain ⟨hst, hleaf, hholder⟩ := authenticate_ok_iff.mp hok
      obtain ⟨effective, heff, hdenies⟩ := (authorize_deniesLeaf request config clock hv hp (st, leaf)).of_error he record hr
      obtain ⟨reason, att, hrec⟩ := hdenies record hr
      exact ⟨⟨st, hst⟩, leaf, hleaf, hholder, effective, reason, att, heff, hrec⟩
  · intro chain chain' root hroot root' hroot' hissuer hu maxDepth maxDepth' clock clock' revocations revocations' atTime
      staleness
    exact verifyChain_untrusted hroot hroot' hissuer hu _ _ _ _ _ _ _ _

end

/-- A strict callee and a lenient one refuse a copied chain alike. -/
theorem hides_authorization_readGrant :
    let _ := Interp.ascii
    let _ := Crypto.toy
    let request : PeerRequest := { chain := [readGrant], requestedCapability := lit "read", recordId := lit "r0" }
    let strict : PeerConfig :=
      { toyConfig with policy := localPolicy ∅, requireCallerAttestation := requireHardware, enclavePrivateKey := some (5 : UInt8) }
    handlePeerRequest request strict toyReadings = handlePeerRequest request toyConfig toyReadings ∧
      ∃ e, (handlePeerRequest request toyConfig toyReadings).result = .error e ∧ e.record? = none := by
  intro _ _ request strict
  refine (handlePeerRequest_hides_authorization request toyConfig strict toyReadings rfl (by simp [toyConfig])
    (fun scope => recordFree_ok _)).1 (.inr ?_)
  intro leaf _ hholder
  exact raise_ne_ok (hholder rfl)

end Ca2a
