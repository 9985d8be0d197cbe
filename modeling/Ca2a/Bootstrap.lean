/-
`ca2a_runtime.bootstrap` and `ca2a_runtime.cedar`: the node that `ca2a start`
makes of a configuration file.

The files that the configuration names are read, the provider it names is taken
where the host has it, and the verifier of callers is built from its roots.
Whatever is missing stops the start: nothing is downgraded. What a started node
accepts is then bounded by its configuration (`start_serves`).
-/
import Ca2a.AgentManifest
import Ca2a.ServerFacts
import Ca2a.TpmCollect

namespace Ca2a

open Py

/-! ## Paths -/

/-- A `Path`: its root, which is empty for a relative one, and its parts. -/
structure PurePath where
  root : Str
  parts : List Str

namespace PurePath

/-- `Path(text)` -/
def ofText (text : Str) : PurePath where
  root := match (text.takeWhile (· = cp '/')).length with
    | 0 => []
    -- two slashes in front are kept, three are one
    | 2 => lit "//"
    | _ => lit "/"
  parts := (text.splitOn (cp '/')).filter fun part => part ≠ [] ∧ part ≠ lit "."

/-- `str(path)` -/
def text (path : PurePath) : Str :=
  match path.root ++ join (lit "/") path.parts with
  | [] => lit "."
  | shown => shown

/-- `Path(text)`, under the directory of the configuration when it is relative and there is one. -/
def resolve (configDir : Option PurePath) (text : Str) : PurePath :=
  let path := ofText text
  match configDir with
  | none => path
  | some dir => if path.root = [] then { root := dir.root, parts := dir.parts ++ path.parts } else path

end PurePath

/-! ## `ca2a_runtime.cedar` -/

/-- `CedarPolicy._request`, with an empty context. -/
structure CedarRequest where
  principalType : Str
  principalId : Str
  action : Str
  resourceType : Str
  resourceId : Str

/-- `is_authorized(request, policies, []).decision == Decision.Allow`, or what it raises. -/
abbrev CedarEngine := (request : CedarRequest) → (policies : Str) → Result Bool

/-- `CedarPolicy` -/
structure CedarPolicy where
  policies : Str
  principalType : Str := lit "Agent"
  principalId : Str := lit "peer"
  resourceType : Str := lit "Task"
  resourceId : Str := lit "task"

namespace CedarPolicy
variable (engine : CedarEngine) (policy : CedarPolicy)

def request (capability : Str) : CedarRequest where
  principalType := policy.principalType
  principalId := policy.principalId
  action := capability
  resourceType := policy.resourceType
  resourceId := policy.resourceId

def permits (capability : Str) : Result Bool := engine (policy.request capability) policy.policies

/-- The capabilities that are permitted, each asked for once. -/
def permitted : List Str → Result (Finset Str)
  | [] => .ok ∅
  | capability :: rest => do
    let allowed ← policy.permits engine capability
    let kept ← permitted rest
    .ok (if allowed then insert capability kept else kept)

def intersect : Policy := fun delegated => policy.permitted engine (sortedStrs delegated)

variable {engine policy}

/-- What the engine was asked, and what is kept of it. -/
theorem permitted_spec {capabilities : List Str} {kept : Finset Str} (h : policy.permitted engine capabilities = .ok kept) :
    (∀ c ∈ capabilities, ∃ allowed, policy.permits engine c = .ok allowed) ∧
      ∀ c, c ∈ kept ↔ c ∈ capabilities ∧ policy.permits engine c = .ok true := by
  induction capabilities generalizing kept with
  | nil =>
    cases h
    simp
  | cons capability rest ih =>
    simp only [permitted, bind_ok_iff, Except.ok.injEq] at h
    obtain ⟨allowed, hallowed, kept', hrest, rfl⟩ := h
    obtain ⟨hdecided, hkept⟩ := ih hrest
    refine ⟨List.forall_mem_cons.mpr ⟨⟨allowed, hallowed⟩, hdecided⟩, fun c => ?_⟩
    cases allowed with
    | true =>
      rw [if_pos rfl, Finset.mem_insert, hkept, List.mem_cons, or_and_right]
      exact or_congr_left (iff_self_and.mpr fun heq => heq ▸ hallowed)
    | false =>
      rw [if_neg Bool.false_ne_true, hkept, List.mem_cons, or_and_right]
      refine (or_iff_right fun h => ?_).symm
      cases (h.1 ▸ hallowed).symm.trans h.2

theorem exists_permitted {capabilities : List Str} (h : ∀ c ∈ capabilities, ∃ allowed, policy.permits engine c = .ok allowed) :
    ∃ kept, policy.permitted engine capabilities = .ok kept := by
  induction capabilities with
  | nil => exact ⟨∅, rfl⟩
  | cons capability rest ih =>
    obtain ⟨⟨allowed, hallowed⟩, hrest⟩ := List.forall_mem_cons.mp h
    obtain ⟨kept, hkept⟩ := ih hrest
    exact ⟨_, by rw [permitted, hallowed, ok_bind, hkept, ok_bind]⟩

/-- **What a Cedar policy keeps** of a delegated scope: what the engine allows, where it decides of all of it. -/
theorem intersect_ok_iff {delegated effective : Finset Str} :
    policy.intersect engine delegated = .ok effective ↔
      (∀ c ∈ delegated, ∃ allowed, policy.permits engine c = .ok allowed) ∧
        ∀ c, c ∈ effective ↔ c ∈ delegated ∧ policy.permits engine c = .ok true := by
  simp only [intersect, ← mem_sortedStrs (s := delegated)]
  refine ⟨permitted_spec, fun h => ?_⟩
  obtain ⟨kept, hkept⟩ := exists_permitted h.1
  obtain rfl : kept = effective := Finset.ext fun c => ((permitted_spec hkept).2 c).trans (h.2 c).symm
  exact hkept

theorem intersect_narrowing : Policy.Narrowing (policy.intersect engine) := by
  intro scope effective h c hc
  exact (((intersect_ok_iff.mp h).2 c).mp hc).1

end CedarPolicy

/-! ## `ca2a_runtime.bootstrap` -/

/-- What a path holds for `load_policy`. -/
inductive PolicyFile
  | missing
  /-- `OSError` -/
  | unreadable (text : Str)
  /-- What else looking for the file and reading its text raise. -/
  | raises (e : Exc)
  | text (policies : Str)

/-- What a path holds for `build_caller_verifier`. -/
inductive RootsFile
  | missing
  /-- `OSError` -/
  | unreadable (text : Str)
  /-- What looking for the file raises. -/
  | raises (e : Exc)
  | octets (raw : Bytes)

/-- A provider of `_HARDWARE_PROVIDERS`: its name, what its `detect` answers, and what it attests. -/
structure HardwareProvider where
  platform : Str
  detected : Bool
  attest : Provider

/-- What a start has of its host: the files, the platforms and what is drawn. -/
structure Boot [Interp] [Crypto] where
  configDir : Option PurePath := none
  policyFile : PurePath → PolicyFile
  rootsFile : PurePath → RootsFile
  manifestFile : PurePath → ManifestFile
  anchorFile : PurePath → AnchorFile
  engine : CedarEngine
  sdk : TpmSdk
  manifests : ManifestSdk
  tsm : TsmEnv
  tpm : TpmEnv
  sevSnpProvider : Provider
  tdxProvider : Provider
  tpmProvider : Provider
  privateKey : Crypto.XKey
  challengeSecret : Bytes

/-- A node and the identity it is started with. -/
structure StartedNode [Interp] [Crypto] where
  node : PeerNode
  agentManifest : Option AgentManifestBinding

section
variable [Interp] [Crypto]

namespace Boot

/-- `_HARDWARE_PROVIDERS`, in its order. -/
def hardwareProviders (boot : Boot) : List HardwareProvider :=
  [⟨lit "sev-snp", sevSnpDetect boot.tsm, boot.sevSnpProvider⟩, ⟨lit "tdx", tdxDetect boot.tsm, boot.tdxProvider⟩,
    ⟨lit "tpm", tpmDetect boot.tpm, boot.tpmProvider⟩]

/-- The text of the policy bundle at the path. -/
def bundleText (path : PurePath) : PolicyFile → Result Str
  | .missing => configError (lit "policy_bundle_path not found: " ++ path.text)
  | .unreadable exc => configError (lit "cannot read policy_bundle_path: " ++ path.text) (some exc)
  | .raises e => .error e
  | .text policies =>
    if strip policies = [] then configError (lit "policy_bundle_path is empty: " ++ path.text) else .ok policies

/-- `load_policy` -/
def loadPolicy (boot : Boot) (config : Ca2aConfig) : Result Policy :=
  match config.policyBundlePath with
  | some (c :: rest) => do
    let path := PurePath.resolve boot.configDir (c :: rest)
    let policies ← bundleText path (boot.policyFile path)
    .ok (CedarPolicy.intersect boot.engine { policies })
  | _ =>
    match config.localPolicy with
    | some allow => .ok (localPolicy allow)
    | none => configError (lit "ca2a start requires local_policy or policy_bundle_path in the config")

/-- `select_provider` -/
def selectProvider (boot : Boot) (config : Ca2aConfig) : Result Provider :=
  if config.provider = softwareOnly then .ok softwareProvider
  else match boot.hardwareProviders.find? (·.platform = config.provider) with
    | some candidate =>
      if candidate.detected then .ok candidate.attest
      else configError (lit "attestation provider " ++ Py.repr config.provider ++ lit " is not available on this host")
        (some (lit "run on the matching confidential VM, or set provider 'software-only' to accept a no-hardware-guarantee posture"))
    | none =>
      if config.provider = lit "auto" then
        match boot.hardwareProviders.find? (·.detected) with
        | some candidate => .ok candidate.attest
        | none => configError (lit "no hardware attestation provider detected")
          (some (lit "set provider 'software-only' to run without a hardware guarantee; auto never falls back to it"))
      else configError (lit "attestation provider " ++ Py.repr config.provider ++ lit " is not implemented")

/-- `_REPORT_VERIFIERS`: why a platform's evidence cannot be appraised from a file of roots. -/
def reportVerifiers : List (Str × Str) :=
  [(lit "sev-snp", lit "verify_sev_snp_report needs the VCEK chain, which the collector does not carry on the report yet"),
    (lit "tdx", lit "verify_tdx_quote has no AttestationReport-level wrapper yet")]

/-- `not raw.strip()` -/
def blank (raw : Bytes) : Bool := raw.all fun b => b = 0x20 ∨ 0x09 ≤ b ∧ b ≤ 0x0D

/-- The roots at the path. -/
def rootsPem (path : PurePath) : RootsFile → Result Bytes
  | .missing => configError (lit "attestation.caller_verifier.trusted_roots_path not found: " ++ path.text)
  | .unreadable exc =>
    configError (lit "cannot read attestation.caller_verifier.trusted_roots_path: " ++ path.text) (some exc)
  | .raises e => .error e
  | .octets raw =>
    if blank raw then configError (lit "attestation.caller_verifier.trusted_roots_path is empty: " ++ path.text) else .ok raw

/-- `build_caller_verifier` -/
def buildCallerVerifier (boot : Boot) (config : Ca2aConfig) : Result (Option Verifier) :=
  match config.callerVerifierPlatform with
  | none => .ok none
  | some platform =>
    match Dict.get? reportVerifiers platform with
    | some reason =>
      configError (lit "attestation.caller_verifier.platform " ++ Py.repr platform ++
        lit " cannot be appraised from a config file yet") (some reason)
    | none =>
      if platform ≠ lit "tpm" then
        configError (lit "attestation.caller_verifier.platform " ++ Py.repr platform ++ lit " is not implemented")
      else do
        let path := PurePath.resolve boot.configDir (config.callerVerifierTrustedRootsPath.getD [])
        let raw ← rootsPem path (boot.rootsFile path)
        .ok (some (tpmVerifier boot.sdk raw))

/-- The identity of `build_peer_node`. -/
def manifestBinding (boot : Boot) (config : Ca2aConfig) : Result (Option AgentManifestBinding) :=
  match config.agentManifestPath with
  | none => .ok none
  | some path =>
    match config.agentManifestTrustAnchorPath, config.agentManifestAuthenticatedSubject with
    | some anchor, some subject =>
      (bindAgentManifest boot.manifests (boot.manifestFile (PurePath.resolve boot.configDir path))
        (boot.anchorFile (PurePath.resolve boot.configDir anchor)) subject).map some
    | _, _ => configError (lit "Agent Manifest startup requires path, trust anchor, and authenticated subject")

/-- The constructor of `PeerNode`, as `build_peer_node` calls it. -/
def newNode (boot : Boot) (config : Ca2aConfig) (policy : Policy) (provider : Provider) (callerVerifier : Option Verifier) :
    Result PeerNode :=
  if requirement : config.requireCallerAttestation ∈ requirementValues then
    if unappraisable : config.requireCallerAttestation = requireHardware ∧ callerVerifier = none then
      configError (lit "require_caller_attestation='hardware' needs a caller_verifier")
        (some (lit "a hardware report cannot be appraised without one, so every call would be refused"))
    else .ok
      { policy, provider, callerVerifier, requirement
        privateKey := boot.privateKey
        challengeSecret := boot.challengeSecret
        challengeTtlSeconds := config.challengeTtlSeconds
        maxDepth := config.maxDelegationDepth
        requireCallerAttestation := config.requireCallerAttestation
        trustedRootIssuers := config.trustedRootIssuers
        appraisable := fun hhardware hnone => unappraisable ⟨hhardware, hnone⟩ }
  else
    configError (lit "require_caller_attestation must be one of " ++ reprList (sortedStrs requirementValues) ++ lit ", got " ++
      Py.repr config.requireCallerAttestation)

/-- `build_peer_node` -/
def buildPeerNode (boot : Boot) (config : Ca2aConfig) : Result StartedNode := do
  let policy ← boot.loadPolicy config
  if config.trustedRootIssuers = ∅ then
    configError (lit "ca2a start requires at least one trusted_root_issuer")
      (some (lit "pin the Ed25519 public key of each authority allowed to originate delegation chains"))
  else do
    let agentManifest ← boot.manifestBinding config
    let provider ← boot.selectProvider config
    let callerVerifier ← boot.buildCallerVerifier config
    let node ← boot.newNode config policy provider callerVerifier
    .ok { node, agentManifest }

/-- `_cmd_start`, up to where the node is served: the node, the host and the port. -/
def start (boot : Boot) (path : Str) (file : ConfigFile) : Result (StartedNode × Str × Int) := do
  let config ← Ca2aConfig.load path file
  let started ← boot.buildPeerNode config
  let address ← config.listenHostPort
  .ok (started, address)

/-! ## What is built -/

omit [Crypto] in
theorem bundleText_spec (path : PurePath) (file : PolicyFile) :
    Spec (bundleText path file) (fun policies => file = .text policies ∧ strip policies ≠ [])
      fun e => e.isClass .configError ∨ file = .raises e := by
  cases file with
  | missing => exact .inl rfl
  | unreadable text => exact .inl rfl
  | raises e => exact .inr rfl
  | text policies =>
    simp only [bundleText]
    split
    · exact .inl rfl
    · rename_i hblank
      exact ⟨rfl, hblank⟩

omit [Interp] [Crypto] in
theorem rootsPem_spec (path : PurePath) (file : RootsFile) :
    Spec (rootsPem path file) (fun raw => file = .octets raw ∧ blank raw = false)
      fun e => e.isClass .configError ∨ file = .raises e := by
  cases file with
  | missing => exact .inl rfl
  | unreadable text => exact .inl rfl
  | raises e => exact .inr rfl
  | octets raw =>
    simp only [rootsPem]
    split
    · exact .inl rfl
    · rename_i hblank
      exact ⟨rfl, by simpa using hblank⟩

variable (boot : Boot) (config : Ca2aConfig)

/-- The policy is the bundle's where one is named, else the allow set. -/
def PolicyFrom (policy : Policy) : Prop :=
  (∃ path policies, config.policyBundlePath = some path ∧ path ≠ [] ∧
    boot.policyFile (PurePath.resolve boot.configDir path) = .text policies ∧ strip policies ≠ [] ∧
    policy = CedarPolicy.intersect boot.engine { policies }) ∨
  (∀ path ∈ config.policyBundlePath, path = []) ∧ ∃ allow, config.localPolicy = some allow ∧ policy = localPolicy allow

/-- The provider is the one that is named, or with `auto` one of the host's; never a downgrade to software. -/
def ProviderFrom (provider : Provider) : Prop :=
  config.provider = softwareOnly ∧ provider = softwareProvider ∨
    config.provider ≠ softwareOnly ∧ ∃ candidate ∈ boot.hardwareProviders, candidate.detected = true ∧
      (config.provider = candidate.platform ∨ config.provider = lit "auto") ∧ provider = candidate.attest

/-- The verifier is the TPM's under the roots that are configured, where a platform is. -/
def VerifierFrom (verifier : Option Verifier) : Prop :=
  config.callerVerifierPlatform = none ∧ verifier = none ∨
    config.callerVerifierPlatform = some (lit "tpm") ∧ ∃ raw, blank raw = false ∧
      boot.rootsFile (PurePath.resolve boot.configDir (config.callerVerifierTrustedRootsPath.getD [])) = .octets raw ∧
      verifier = some (tpmVerifier boot.sdk raw)

/-- The identity is one that was verified, where a manifest is configured. -/
def ManifestFrom (binding : Option AgentManifestBinding) : Prop :=
  config.agentManifestPath = none ∧ binding = none ∨
    ∃ path anchor subject identity, config.agentManifestPath = some path ∧
      config.agentManifestTrustAnchorPath = some anchor ∧ config.agentManifestAuthenticatedSubject = some subject ∧
      binding = some identity ∧
      IdentityFrom boot.manifests (boot.manifestFile (PurePath.resolve boot.configDir path))
        (boot.anchorFile (PurePath.resolve boot.configDir anchor)) subject identity

/-- What `build_peer_node` raises that is no `ConfigError`: what the files that are configured raise, and what the library that
verifies manifests does. -/
inductive Escape : Exc → Prop
  | policy {path : Str} {e : Exc} (hpath : path ∈ config.policyBundlePath)
    (h : boot.policyFile (PurePath.resolve boot.configDir path) = .raises e) : Escape e
  | roots {e : Exc}
    (h : boot.rootsFile (PurePath.resolve boot.configDir (config.callerVerifierTrustedRootsPath.getD [])) = .raises e) :
    Escape e
  | manifest {path anchor : Str} {e : Exc} (hpath : path ∈ config.agentManifestPath)
    (hanchor : anchor ∈ config.agentManifestTrustAnchorPath)
    (h : IdentityEscape boot.manifests (boot.manifestFile (PurePath.resolve boot.configDir path))
      (boot.anchorFile (PurePath.resolve boot.configDir anchor)) e) : Escape e

variable {boot config}

theorem loadPolicy_spec :
    Spec (boot.loadPolicy config) (boot.PolicyFrom config) fun e => e.isClass .configError ∨ boot.Escape config e := by
  unfold loadPolicy
  split
  · rename_i c rest hbundle
    have hread := (bundleText_spec (PurePath.resolve boot.configDir (c :: rest))
      (boot.policyFile (PurePath.resolve boot.configDir (c :: rest)))).mono (fun _ h => h)
        fun e h => h.imp_right fun h => (Escape.policy hbundle h : boot.Escape config e)
    refine hread.bind fun policies h => ?_
    exact .inl ⟨_, policies, hbundle, List.cons_ne_nil _ _, h.1, h.2, rfl⟩
  · rename_i hbundle
    have hfalsy : ∀ path ∈ config.policyBundlePath, path = [] := by
      intro path hpath
      cases path with
      | nil => rfl
      | cons c rest => exact absurd hpath (hbundle c rest)
    split
    · rename_i allow hallow
      exact .inr ⟨hfalsy, allow, hallow, rfl⟩
    · exact .inl rfl

theorem selectProvider_spec :
    Spec (boot.selectProvider config) (boot.ProviderFrom config) (Exc.isClass .configError) := by
  unfold selectProvider
  split
  · rename_i hsoftware
    exact .inl ⟨hsoftware, rfl⟩
  rename_i hhardware
  split
  · rename_i candidate hfind
    have hnamed : candidate.platform = config.provider := by simpa using List.find?_some hfind
    split
    · rename_i hdetected
      exact .inr ⟨hhardware, candidate, List.mem_of_find?_eq_some hfind, hdetected, .inl hnamed.symm, rfl⟩
    · exact rfl
  · split
    · rename_i hauto
      split
      · rename_i candidate hfind
        exact .inr ⟨hhardware, candidate, List.mem_of_find?_eq_some hfind, List.find?_some hfind, .inr hauto, rfl⟩
      · exact rfl
    · exact rfl

theorem buildCallerVerifier_spec :
    Spec (boot.buildCallerVerifier config) (boot.VerifierFrom config)
      fun e => e.isClass .configError ∨ boot.Escape config e := by
  unfold buildCallerVerifier
  split
  · rename_i hnone
    exact .inl ⟨hnone, rfl⟩
  rename_i platform hplatform
  split
  · exact .inl rfl
  split
  · exact .inl rfl
  rename_i htpm
  rw [not_not] at htpm
  refine ((rootsPem_spec _ _).mono (fun _ h => h) fun _ h => h.imp_right .roots).bind fun raw h => ?_
  exact .inr ⟨htpm ▸ hplatform, raw, h.2, h.1, rfl⟩

theorem manifestBinding_spec :
    Spec (boot.manifestBinding config) (boot.ManifestFrom config)
      fun e => e.isClass .configError ∨ boot.Escape config e := by
  unfold manifestBinding
  split
  · rename_i hnone
    exact .inl ⟨hnone, rfl⟩
  rename_i path hpath
  split
  · rename_i anchor subject hanchor hsubject
    have hbind := bindAgentManifest_spec boot.manifests (boot.manifestFile (PurePath.resolve boot.configDir path))
      (boot.anchorFile (PurePath.resolve boot.configDir anchor)) subject
    cases hresult : bindAgentManifest boot.manifests (boot.manifestFile (PurePath.resolve boot.configDir path))
      (boot.anchorFile (PurePath.resolve boot.configDir anchor)) subject with
    | ok identity => exact .inr ⟨path, anchor, subject, identity, hpath, hanchor, hsubject, rfl, hbind.of_ok hresult⟩
    | error e =>
      exact (hbind.of_error hresult).imp_right (.manifest hpath hanchor)
  · exact .inl rfl

/-- A node that does what its configuration says. -/
structure Follows (boot : Boot) (config : Ca2aConfig) (started : StartedNode) : Prop where
  policy : boot.PolicyFrom config started.node.policy
  provider : boot.ProviderFrom config started.node.provider
  verifier : boot.VerifierFrom config started.node.callerVerifier
  manifest : boot.ManifestFrom config started.agentManifest
  roots : started.node.trustedRootIssuers = config.trustedRootIssuers ∧ config.trustedRootIssuers ≠ ∅
  bounds : started.node.maxDepth = config.maxDelegationDepth ∧
    started.node.challengeTtlSeconds = config.challengeTtlSeconds
  requirement : started.node.requireCallerAttestation = config.requireCallerAttestation
  holderProof : started.node.requireHolderProof = true
  unrevoked : started.node.revocationSource = none

theorem newNode_spec {policy : Policy} {provider : Provider} {verifier : Option Verifier}
    {binding : Option AgentManifestBinding} (hpolicy : boot.PolicyFrom config policy)
    (hprovider : boot.ProviderFrom config provider) (hverifier : boot.VerifierFrom config verifier)
    (hmanifest : boot.ManifestFrom config binding) (hroots : config.trustedRootIssuers ≠ ∅) :
    Spec (boot.newNode config policy provider verifier) (fun node => boot.Follows config ⟨node, binding⟩)
      (Exc.isClass .configError) := by
  unfold newNode
  split
  · split
    · exact rfl
    · exact ⟨hpolicy, hprovider, hverifier, hmanifest, ⟨rfl, hroots⟩, ⟨rfl, rfl⟩, rfl, rfl, rfl⟩
  · exact rfl

theorem buildPeerNode_spec :
    Spec (boot.buildPeerNode config) (boot.Follows config) fun e => e.isClass .configError ∨ boot.Escape config e := by
  unfold buildPeerNode
  refine loadPolicy_spec.bind fun policy hpolicy => ?_
  split
  · exact .inl rfl
  rename_i hroots
  refine manifestBinding_spec.bind fun binding hmanifest => ?_
  refine (selectProvider_spec.mono (fun _ h => h) fun _ => .inl).bind fun provider hprovider => ?_
  refine buildCallerVerifier_spec.bind fun verifier hverifier => ?_
  exact ((newNode_spec hpolicy hprovider hverifier hmanifest hroots).mono (fun _ h => h) fun _ => .inl).bind fun _ h => h

/-! ## When a start succeeds -/

theorem hardwareProviders_inj {candidate candidate' : HardwareProvider} (h : candidate ∈ boot.hardwareProviders)
    (h' : candidate' ∈ boot.hardwareProviders) (hsame : candidate.platform = candidate'.platform) : candidate = candidate' := by
  have htdx : lit "sev-snp" ≠ lit "tdx" := by decide
  have htpm : lit "sev-snp" ≠ lit "tpm" := by decide
  have hother : lit "tdx" ≠ lit "tpm" := by decide
  simp only [hardwareProviders, List.mem_cons, List.not_mem_nil, or_false] at h h'
  rcases h with rfl | rfl | rfl <;> rcases h' with rfl | rfl | rfl
  all_goals first
    | rfl
    | exact absurd hsame (by assumption)
    | exact absurd hsame.symm (by assumption)

theorem auto_not_hardware {candidate : HardwareProvider} (h : candidate ∈ boot.hardwareProviders) :
    candidate.platform ≠ lit "auto" := by
  simp only [hardwareProviders, List.mem_cons, List.not_mem_nil, or_false] at h
  rcases h with rfl | rfl | rfl
  all_goals exact of_decide_eq_true rfl

theorem exists_loadPolicy_iff : (∃ policy, boot.loadPolicy config = .ok policy) ↔ ∃ policy, boot.PolicyFrom config policy := by
  refine ⟨fun h => ?_, fun h => ?_⟩
  · obtain ⟨policy, h⟩ := h
    exact ⟨policy, loadPolicy_spec.of_ok h⟩
  · obtain ⟨policy, h⟩ := h
    rcases h with ⟨path, policies, hpath, hne, hfile, hblank, _⟩ | ⟨hfalsy, allow, hallow, _⟩
    · obtain ⟨c, rest, rfl⟩ := List.exists_cons_of_ne_nil hne
      exact ⟨CedarPolicy.intersect boot.engine { policies },
        by simp only [loadPolicy, hpath, hfile, bundleText, hblank, if_false, ok_bind]⟩
    · refine ⟨localPolicy allow, ?_⟩
      unfold loadPolicy
      split
      · rename_i c rest hbundle
        cases hfalsy _ hbundle
      · rw [hallow]

theorem exists_selectProvider_iff :
    (∃ provider, boot.selectProvider config = .ok provider) ↔ ∃ provider, boot.ProviderFrom config provider := by
  refine ⟨fun h => ?_, fun h => ?_⟩
  · obtain ⟨provider, h⟩ := h
    exact ⟨provider, selectProvider_spec.of_ok h⟩
  obtain ⟨provider, ⟨hsoftware, _⟩ | ⟨hhardware, candidate, hmem, hdetected, hnamed, _⟩⟩ := h
  · exact ⟨_, if_pos hsoftware⟩
  unfold selectProvider
  rw [if_neg hhardware]
  cases hfind : boot.hardwareProviders.find? (·.platform = config.provider) with
  | some other =>
    have hother : other.platform = config.provider := by simpa using List.find?_some hfind
    have hin := List.mem_of_find?_eq_some hfind
    rcases hnamed with hnamed | hauto
    · obtain rfl := hardwareProviders_inj hin hmem (hother.trans hnamed)
      exact ⟨_, if_pos hdetected⟩
    · exact absurd (hother.trans hauto) (auto_not_hardware hin)
  | none =>
    have hnone := List.find?_eq_none.mp hfind candidate hmem
    rcases hnamed with hnamed | hauto
    · simp [hnamed] at hnone
    · dsimp only
      rw [if_pos hauto]
      cases hdetects : boot.hardwareProviders.find? (·.detected) with
      | some other => exact ⟨_, rfl⟩
      | none => exact absurd hdetected (List.find?_eq_none.mp hdetects candidate hmem)

theorem exists_buildCallerVerifier_iff :
    (∃ verifier, boot.buildCallerVerifier config = .ok verifier) ↔ ∃ verifier, boot.VerifierFrom config verifier := by
  refine ⟨fun h => ?_, fun h => ?_⟩
  · obtain ⟨verifier, h⟩ := h
    exact ⟨verifier, buildCallerVerifier_spec.of_ok h⟩
  · obtain ⟨verifier, ⟨hnone, _⟩ | ⟨htpm, raw, hblank, hfile, _⟩⟩ := h
    · exact ⟨none, by rw [buildCallerVerifier, hnone]⟩
    · have hreported : Dict.get? reportVerifiers (lit "tpm") = none := by decide
      refine ⟨some (tpmVerifier boot.sdk raw), ?_⟩
      simp [buildCallerVerifier, htpm, hreported, hfile, rootsPem, hblank]

/-- What a valid configuration needs of the host to start. -/
structure Startable (boot : Boot) (config : Ca2aConfig) : Prop where
  policy : ∃ policy, boot.PolicyFrom config policy
  roots : config.trustedRootIssuers ≠ ∅
  manifest : ∃ binding, boot.manifestBinding config = .ok binding
  provider : ∃ provider, boot.ProviderFrom config provider
  verifier : ∃ verifier, boot.VerifierFrom config verifier

theorem exists_buildPeerNode_iff (hvalid : config.Valid) :
    (∃ started, boot.buildPeerNode config = .ok started) ↔ boot.Startable config := by
  refine ⟨fun h => ?_, fun h => ?_⟩
  · obtain ⟨started, h⟩ := h
    rw [buildPeerNode, bind_ok_iff] at h
    obtain ⟨policy, hpolicy, h⟩ := h
    split at h
    · cases h
    rename_i hroots
    simp only [bind_ok_iff] at h
    obtain ⟨binding, hbinding, provider, hprovider, verifier, hverifier, _⟩ := h
    exact ⟨exists_loadPolicy_iff.mp ⟨policy, hpolicy⟩, hroots, ⟨binding, hbinding⟩,
      exists_selectProvider_iff.mp ⟨provider, hprovider⟩, exists_buildCallerVerifier_iff.mp ⟨verifier, hverifier⟩⟩
  · obtain ⟨policy, hpolicy⟩ := exists_loadPolicy_iff.mpr h.policy
    obtain ⟨binding, hbinding⟩ := h.manifest
    obtain ⟨provider, hprovider⟩ := exists_selectProvider_iff.mpr h.provider
    obtain ⟨verifier, hverifier⟩ := exists_buildCallerVerifier_iff.mpr h.verifier
    -- a valid configuration that requires hardware names a platform, and what is built of it is a verifier
    have happraisable : ¬ (config.requireCallerAttestation = requireHardware ∧ verifier = none) := by
      intro hrequired
      rcases buildCallerVerifier_spec.of_ok hverifier with ⟨hnone, _⟩ | ⟨_, raw, _, _, hsome⟩
      · exact hvalid.appraisable hrequired.1 hnone
      · cases hrequired.2.symm.trans hsome
    have hnode : ∃ node, boot.newNode config policy provider verifier = .ok node := by
      rw [newNode, dif_pos hvalid.requirement, dif_neg happraisable]
      exact ⟨_, rfl⟩
    obtain ⟨node, hnode⟩ := hnode
    exact ⟨⟨node, binding⟩, by rw [buildPeerNode, hpolicy, ok_bind, if_neg h.roots, hbinding, ok_bind, hprovider, ok_bind,
      hverifier, ok_bind, hnode, ok_bind]⟩

/-! ## What a started node accepts -/

/-- A call that a node took which does what its configuration says. -/
structure Admitted (boot : Boot) (config : Ca2aConfig) (node : PeerNode) (clock : Readings) (request : PeerRequest)
    (result : PeerResult) : Prop where
  root : ∀ root ∈ request.chain.head?, root.issuer ∈ config.trustedRootIssuers
  length : request.chain ≠ [] ∧ (request.chain.length : Int) ≤ config.maxDelegationDepth + 1
  hops : ∀ c ∈ request.chain, c.Signed ∧ result.grantedCapability ∈ c.scope
  requested : result.grantedCapability = request.requestedCapability
  bundle : ∀ path ∈ config.policyBundlePath, path ≠ [] → ∃ policies,
    boot.policyFile (PurePath.resolve boot.configDir path) = .text policies ∧
    boot.engine (CedarPolicy.request { policies } result.grantedCapability) policies = .ok true
  allowed : (∀ path ∈ config.policyBundlePath, path = []) → ∃ allow ∈ config.localPolicy, result.grantedCapability ∈ allow
  held : ∃ leaf proof, request.chain.getLast? = some leaf ∧ request.holderProof = some proof ∧
    verifyHolderProof proof leaf node.challengeSecret (holderParams request node.channelPublicKey) clock.holder = .ok ()
  hardware : config.requireCallerAttestation = requireHardware → ∃ offer raw evidence quote measurement,
    request.callerOffer = some offer ∧ offer.report.role = roleCaller ∧
    boot.rootsFile (PurePath.resolve boot.configDir (config.callerVerifierTrustedRootsPath.getD [])) = .octets raw ∧
    TpmAccepted boot.sdk raw offer.report measurement evidence quote

theorem PolicyFrom.narrowing {policy : Policy} (h : boot.PolicyFrom config policy) : policy.Narrowing := by
  rcases h with ⟨path, policies, _, _, _, _, rfl⟩ | ⟨_, allow, _, rfl⟩
  · exact CedarPolicy.intersect_narrowing
  · exact localPolicy_narrowing allow

/-- What a policy keeps, the configuration permits. -/
theorem PolicyFrom.permits {policy : Policy} (h : boot.PolicyFrom config policy) {scope effective : Finset Str}
    (heffective : policy scope = .ok effective) {capability : Str} (hmem : capability ∈ effective) :
    (∀ path ∈ config.policyBundlePath, path ≠ [] → ∃ policies,
      boot.policyFile (PurePath.resolve boot.configDir path) = .text policies ∧
      boot.engine (CedarPolicy.request { policies } capability) policies = .ok true) ∧
    ((∀ path ∈ config.policyBundlePath, path = []) → ∃ allow ∈ config.localPolicy, capability ∈ allow) := by
  rcases h with ⟨path, policies, hpath, hne, hfile, _, rfl⟩ | ⟨hfalsy, allow, hallow, rfl⟩
  · refine ⟨fun path' hpath' _ => ?_, fun hfalsy => absurd (hfalsy path hpath) hne⟩
    obtain rfl := Option.some.inj (hpath.symm.trans hpath')
    exact ⟨policies, hfile, (((CedarPolicy.intersect_ok_iff.mp heffective).2 capability).mp hmem).2⟩
  · refine ⟨fun path hpath hne => absurd (hfalsy path hpath) hne, fun _ => ⟨allow, hallow, ?_⟩⟩
    obtain rfl := Except.ok.inj heffective
    exact (Finset.mem_inter.mp hmem).2

theorem Follows.admitted {started : StartedNode} (h : boot.Follows config started) {message : Dict Json} {clock : Readings}
    {result : PeerResult} (hhandle : started.node.handle message clock = .ok result) :
    ∃ request, parsePeerRequest message = .ok (some request) ∧
      boot.Admitted config started.node clock request result := by
  obtain ⟨request, hparsed, hserve⟩ := PeerNode.handle_ok_iff.mp hhandle
  obtain ⟨revocations, _, hrun⟩ := PeerNode.serve_ok_iff.mp hserve
  obtain ⟨leaf, haccepted⟩ := handlePeerRequest_ok_iff.mp hrun
  have g := haccepted.guarantee
  have hchain := g.chain_accepted
  obtain ⟨effective, heffective, _, hpermitted⟩ := g.permitted
  have hpermits := h.policy.permits heffective (g.granted.symm ▸ hpermitted)
  refine ⟨request, hparsed,
    { root := fun root hroot => h.roots.1 ▸ hchain.root_trusted root hroot
      length := ⟨hchain.nonempty, ?_⟩
      hops := fun c hc => ⟨hchain.signed c hc, g.every_hop h.policy.narrowing c hc⟩
      requested := g.granted
      bundle := hpermits.1
      allowed := hpermits.2
      held := ?_
      hardware := fun hrequired => ?_ }⟩
  · have hpos := List.length_pos_iff.mpr hchain.nonempty
    have hlast := (hchain.depth_eq (request.chain.length - 1) (by omega)).2
    have hdepth : (started.node.config revocations).maxDepth = config.maxDelegationDepth := h.bounds.1
    omega
  · obtain ⟨proof, audience, secret, hproof, haudience, hsecret, hverified⟩ := g.holder h.holderProof
    obtain rfl : started.node.channelPublicKey = audience := Option.some.inj haudience
    obtain rfl : started.node.challengeSecret = secret := Option.some.inj hsecret
    exact ⟨leaf, proof, g.leaf_eq, hproof, hverified⟩
  · have hnode : started.node.requireCallerAttestation = requireHardware := h.requirement.trans hrequired
    have hattested : result.callerAttestation = .hardware := by
      rcases g.requirement with hnone | ⟨hany, _⟩ | ⟨_, hhardware⟩
      · exact absurd (hnone.symm.trans hnode) (by decide)
      · exact absurd (hany.symm.trans hnode) (by decide)
      · exact hhardware
    obtain ⟨offer, secret, verify, measurement, hoffer, _, hverify, hrole, hmeasured, _⟩ := g.hardware hattested
    have hverify : started.node.callerVerifier = some verify := hverify
    rcases h.verifier with ⟨_, hnone⟩ | ⟨_, raw, _, hfile, hsome⟩
    · cases hnone.symm.trans hverify
    · obtain rfl := Option.some.inj (hsome.symm.trans hverify)
      obtain ⟨_, _, evidence, quote, htpm⟩ := verifyTpmReport_ok_iff.mp hmeasured
      exact ⟨offer, raw, evidence, quote, measurement, hoffer, hrole, hfile, htpm⟩

/-- **What `ca2a start` serves.** A node is started only of a valid configuration and does what it says; a call that the node
takes is one that its configuration admits: from a configured root and within the configured depth, for a capability that
every hop and the configured policy grant, with a proof by the holder of the leaf, and with TPM evidence under the configured
roots where hardware is required. What stops a start is a `ConfigError`, but for what reading a file, the fields of the
configuration or the manifest library raise. A valid configuration starts exactly where the host has what it names. -/
theorem start_serves (boot : Boot) (path : Str) (file : ConfigFile) :
    (∀ started address, boot.start path file = .ok (started, address) →
      ∃ config, Ca2aConfig.load path file = .ok config ∧ config.Valid ∧ config.listenHostPort = .ok address ∧
        boot.Follows config started ∧
        ∀ message clock result, started.node.handle message clock = .ok result →
          ∃ request, parsePeerRequest message = .ok (some request) ∧
            boot.Admitted config started.node clock request result) ∧
    (∀ e, boot.start path file = .error e → e.isClass .configError ∨ file = .unreadable e ∨
      (∃ data, file.mapping? = some data ∧ ConfigEscape data e) ∨
      ∃ config, Ca2aConfig.load path file = .ok config ∧ boot.Escape config e) ∧
    ∀ config, Ca2aConfig.load path file = .ok config →
      ((∃ started address, boot.start path file = .ok (started, address)) ↔ boot.Startable config) := by
  have hload := Ca2aConfig.load_spec path file
  refine ⟨fun started address h => ?_, fun e h => ?_, fun config hconfig => ?_⟩
  · simp only [start, bind_ok_iff, Except.ok.injEq, Prod.mk.injEq] at h
    obtain ⟨config, hconfig, started', hbuild, address', haddress, rfl, rfl⟩ := h
    have hfollows := buildPeerNode_spec.of_ok hbuild
    exact ⟨config, hconfig, hload.of_ok hconfig, haddress, hfollows, fun message clock result => hfollows.admitted⟩
  · simp only [start, bind_error_iff] at h
    rcases h with h | ⟨config, hconfig, h | ⟨started, _, h | ⟨address, _, h⟩⟩⟩
    · exact (hload.of_error h).imp_right fun h => h.imp_right .inl
    · exact (buildPeerNode_spec.of_error h).imp_right fun h => .inr (.inr ⟨config, hconfig, h⟩)
    · obtain ⟨host, port, haddress⟩ := (hload.of_ok hconfig).listenAddr
      cases haddress.symm.trans h
    · cases h
  · have hvalid := hload.of_ok hconfig
    obtain ⟨host, port, haddress⟩ := hvalid.listenAddr
    rw [← exists_buildPeerNode_iff hvalid]
    refine ⟨fun h => ?_, fun h => ?_⟩
    · obtain ⟨started, address, h⟩ := h
      simp only [start, hconfig, ok_bind, bind_ok_iff] at h
      obtain ⟨started', hbuild, _⟩ := h
      exact ⟨started', hbuild⟩
    · obtain ⟨started, hbuild⟩ := h
      exact ⟨started, (host, port), by rw [start, hconfig, ok_bind, hbuild, ok_bind, haddress, ok_bind]⟩

end Boot

end

/-- A configuration that allows `read`, without hardware. -/
def readConfig : Ca2aConfig where
  provider := softwareOnly
  localPolicy := some {lit "read"}
  trustedRootIssuers := {readGrant.issuer}

/-- The same, on a TPM. -/
def quotedConfig : Ca2aConfig := { readConfig with provider := lit "tpm" }

def Ca2aConfig.file (config : Ca2aConfig) : ConfigFile := .document (.mapping config.toSettings)

/-- A host that has no device and no file but its configuration. -/
def bareHost : @Boot Interp.ascii Crypto.wire :=
  let _ := Interp.ascii
  let _ := Crypto.wire
  { policyFile := fun _ => .missing
    rootsFile := fun _ => .missing
    manifestFile := fun _ => .unreadable []
    anchorFile := fun _ => .unreadable []
    engine := fun _ _ => .ok false
    sdk := { parseTpmtSignature := fun _ => .error [], verify := fun _ _ _ _ _ _ => .ok false }
    manifests := { coseManifestVersion := [], decodeCose := fun _ => .error [], verifyManifest := fun _ _ => configError [] }
    tsm := { platform := lit "linux", isDir := fun _ => false, present := fun _ => false }
    tpm := { platform := lit "linux", present := fun _ => false, bindings := false }
    sevSnpProvider := softwareProvider
    tdxProvider := softwareProvider
    tpmProvider := softwareProvider
    privateKey := (3 : UInt8)
    challengeSecret := [] }

/-- What the bare host gives for the message with a proof, started of this configuration. -/
def bareCall (config : Ca2aConfig) : Result PeerResult :=
  let _ := Interp.ascii
  let _ := Crypto.wire
  do
    let started ← bareHost.start (lit "ca2a.yaml") config.file
    started.1.node.handle provenMessage toyReadings

theorem bareCall_readConfig : (bareCall readConfig).isOk = true := by decide +kernel

/-- What a started node does is bounded by its configuration, and a configuration that names a TPM does not start here. -/
theorem start_serves_bareHost :
    let _ := Interp.ascii
    let _ := Crypto.wire
    (∃ config started address request result, Ca2aConfig.load (lit "ca2a.yaml") readConfig.file = .ok config ∧ config.Valid ∧
      bareHost.start (lit "ca2a.yaml") readConfig.file = .ok (started, address) ∧
      started.node.handle provenMessage toyReadings = .ok result ∧ parsePeerRequest provenMessage = .ok (some request) ∧
      bareHost.Admitted config started.node toyReadings request result ∧ bareHost.Startable config) ∧
    ∃ config, Ca2aConfig.load (lit "ca2a.yaml") quotedConfig.file = .ok config ∧ ¬ bareHost.Startable config := by
  intro _ _
  constructor
  · obtain ⟨result, hcall⟩ := exists_of_isOk bareCall_readConfig
    obtain ⟨⟨started, address⟩, hstart, hhandle⟩ := bind_ok_iff.mp hcall
    obtain ⟨hserves, _, hstartable⟩ := Boot.start_serves bareHost (lit "ca2a.yaml") readConfig.file
    obtain ⟨config, hload, hvalid, _, _, hadmits⟩ := hserves started address hstart
    obtain ⟨request, hparsed, hadmitted⟩ := hadmits provenMessage toyReadings result hhandle
    exact ⟨config, started, address, request, result, hload, hvalid, hstart, hhandle, hparsed, hadmitted,
      (hstartable config hload).mp ⟨started, address, hstart⟩⟩
  · obtain ⟨config, hload⟩ : ∃ config, Ca2aConfig.load (lit "ca2a.yaml") quotedConfig.file = .ok config :=
      exists_of_isOk (by decide +kernel)
    obtain ⟨_, _, hstartable⟩ := Boot.start_serves bareHost (lit "ca2a.yaml") quotedConfig.file
    refine ⟨config, hload, fun h => ?_⟩
    obtain ⟨started, address, hstart⟩ := (hstartable config hload).mpr h
    have hrefused : (bareHost.start (lit "ca2a.yaml") quotedConfig.file).isOk = false := by decide +kernel
    rw [hstart] at hrefused
    cases hrefused

end Ca2a
