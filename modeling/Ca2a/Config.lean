/-
`ca2a_runtime.config`: the configuration of `ca2a start`, from what the YAML
loader makes of the file.

The loader may make of a field whatever YAML can write, so each is looked at
before it is taken (`Setting`). What is taken keeps every bound the file's reader
checks (`Ca2aConfig.Valid`), and whatever keeps them can be written
(`fromDict_toSettings`).
-/
import Ca2a.Peer
import Ca2a.Trace
import Ca2a.Tsm

namespace Ca2a

open Py

/-! ## What the loader makes of a file -/

/-- A key of a mapping: a text, or what else can be hashed. -/
inductive SettingKey
  | text (s : Str)
  | other (repr : Str)

/-- `repr(key)` -/
def SettingKey.repr [Interp] : SettingKey → Str
  | .text s => Py.repr s
  | .other repr => repr

/-- A date, a time, octets or a set: nothing that a configuration asks for. -/
structure OtherSetting where
  typeName : Str
  repr : Str
  truthy : Bool

/-- A value of a configuration. -/
inductive Setting
  | null
  | bool (b : Bool)
  | int (i : Int)
  | float (f : PyFloat)
  | str (s : Str)
  | list (xs : List Setting)
  | mapping (d : List (SettingKey × Setting))
  | other (v : OtherSetting)

/-- The items of a mapping. -/
abbrev Settings := List (SettingKey × Setting)

namespace Setting

/-- `type(value).__name__` -/
def typeName : Setting → Str
  | .null => lit "NoneType"
  | .bool _ => lit "bool"
  | .int _ => lit "int"
  | .float _ => lit "float"
  | .str _ => lit "str"
  | .list _ => lit "list"
  | .mapping _ => lit "dict"
  | .other v => v.typeName

/-- `bool(value)` -/
def truthy : Setting → Bool
  | .null => false
  | .bool b => b
  | .int i => i ≠ 0
  | .float f => f ≠ .finite 0 && f ≠ .negZero
  | .str s => s ≠ []
  | .list xs => !xs.isEmpty
  | .mapping d => !d.isEmpty
  | .other v => v.truthy

section
variable [Interp]

/-- `str(i)`, which has a limit: a configuration may spell an integer in hex. -/
def intText (i : Int) : Result Str :=
  if (decimal i.natAbs).length ≤ maxStrDigits then .ok (strInt i)
  else .error (.builtin .valueError (Interp.errorText "str" (lit "int")))

mutual
/-- `repr(value)` -/
def repr : Setting → Result Str
  | .null => .ok (lit "None")
  | .bool true => .ok (lit "True")
  | .bool false => .ok (lit "False")
  | .int i => intText i
  | .float f => .ok (Interp.floatRepr f)
  | .str s => .ok (Py.repr s)
  | .list xs => do
    let items ← reprItems xs
    .ok (cp '[' :: join (lit ", ") items ++ [cp ']'])
  | .mapping d => do
    let entries ← reprEntries d
    .ok (cp '{' :: join (lit ", ") entries ++ [cp '}'])
  | .other v => .ok v.repr

def reprItems : List Setting → Result (List Str)
  | [] => .ok []
  | x :: xs => do
    let item ← repr x
    let items ← reprItems xs
    .ok (item :: items)

def reprEntries : List (SettingKey × Setting) → Result (List Str)
  | [] => .ok []
  | (key, value) :: d => do
    let text ← repr value
    let entries ← reprEntries d
    .ok ((key.repr ++ lit ": " ++ text) :: entries)
end

end

/-- `isinstance(value, str) and value` -/
def isName : Setting → Option Str
  | .str [] => none
  | .str s => some s
  | _ => none

end Setting

/-- The value under a text, if there is one. -/
def Settings.get? : Settings → Str → Option Setting
  | [], _ => none
  | (.text k, v) :: d, key => if k = key then some v else Settings.get? d key
  | (.other _, _) :: d, key => Settings.get? d key

/-- `d.get(key, default)` -/
def Settings.get (d : Settings) (key : Str) (default : Setting) : Setting := (Settings.get? d key).getD default

@[simp] theorem Settings.get_text (k : Str) (v : Setting) (d : Settings) (key : Str) (default : Setting) :
    Settings.get ((.text k, v) :: d) key default = if k = key then v else Settings.get d key default := by
  simp only [Settings.get, Settings.get?]
  split <;> rfl

/-- `d.get(key, {}) or {}` -/
def Settings.sectionOf (d : Settings) (key : Str) : Setting :=
  let value := Settings.get d key (.mapping [])
  if value.truthy then value else .mapping []

/-! ## The configuration -/

/-- `VALID_PROVIDERS` -/
def validProviders : Finset Str := {lit "auto", lit "tpm", lit "sev-snp", lit "tdx", softwareOnly}

/-- `VALID_ENFORCEMENT` -/
def validEnforcement : Finset Str := {lit "enforcing", lit "advisory", lit "silent"}

/-- `VALID_VERIFIER_PLATFORMS` -/
def validVerifierPlatforms : Finset Str := {lit "tpm", lit "sev-snp", lit "tdx"}

/-- `DEFAULT_LISTEN_ADDR` -/
def defaultListenAddr : Str := lit "127.0.0.1:8443"

/-- `Ca2aConfig` -/
structure Ca2aConfig where
  provider : Str := lit "auto"
  enforcementMode : Str := lit "enforcing"
  requireCallerAttestation : Str := requireNone
  callerVerifierPlatform : Option Str := none
  callerVerifierTrustedRootsPath : Option Str := none
  challengeTtlSeconds : Int := defaultTtlSeconds
  maxDelegationDepth : Int := 8
  policyBundlePath : Option Str := none
  localPolicy : Option (Finset Str) := none
  listenAddr : Str := defaultListenAddr
  trustedRootIssuers : Finset Str := ∅
  agentManifestPath : Option Str := none
  agentManifestTrustAnchorPath : Option Str := none
  agentManifestAuthenticatedSubject : Option Str := none
  deriving DecidableEq

section
variable [Interp]

/-- `raise ConfigError(message, detail=detail)` -/
def configError {α : Type} (message : Str) (detail : Option Str := none) : Result α := raise .configError message detail

/-- The host of an address, out of the brackets of an IPv6 host. -/
def unbracket (host : Str) : Str :=
  if host.head? = some (cp '[') ∧ host.getLast? = some (cp ']') then (host.drop 1).dropLast else host

/-- `split_listen_addr`, for an address that is a text. -/
def splitAddr (addr : Str) : Result (Str × Int) :=
  if addr.all (· ≠ cp ':') then
    configError (lit "listen_addr must be host:port, got " ++ Py.repr addr) (some (lit "for example " ++ defaultListenAddr))
  else
    let host := unbracket (addr.rdropWhile (· ≠ cp ':')).dropLast
    let portText := addr.rtakeWhile (· ≠ cp ':')
    if host = [] then
      configError (lit "listen_addr must name a host explicitly, got " ++ Py.repr addr)
        (some (lit "for example " ++ defaultListenAddr))
    else
      match int? portText with
      | none => configError (lit "listen_addr port must be an integer, got " ++ Py.repr portText)
      | some port =>
        if 1 ≤ port ∧ port ≤ 65535 then .ok (host, port)
        else configError (lit "listen_addr port out of range: " ++ strInt port)

/-- `split_listen_addr` -/
def splitListenAddr (addr : Setting) : Result (Str × Int) :=
  match addr with
  | .str s => splitAddr s
  | addr => do
    let shown ← addr.repr
    configError (lit "listen_addr must be host:port, got " ++ shown) (some (lit "for example " ++ defaultListenAddr))

/-- `Ca2aConfig.listen_host_port` -/
def Ca2aConfig.listenHostPort (config : Ca2aConfig) : Result (Str × Int) := splitAddr config.listenAddr

/-! ## `Ca2aConfig.from_dict` -/

/-- A field whose value has to be one of a `frozenset` of texts. -/
def memberField (value : Setting) (valid : Finset Str) (field : Str) : Result Str :=
  let unknown := do
    let shown ← value.repr
    configError (lit "unknown " ++ field ++ lit ": " ++ shown)
      (some (lit "expected one of " ++ reprList (sortedStrs valid)))
  match value with
  | .list _ | .mapping _ => .error (.builtin .typeError (Interp.errorText "hash" value.typeName))
  | .str s => if s ∈ valid then .ok s else unknown
  | _ => unknown

/-- `attestation.caller_verifier` -/
def verifierField (value : Setting) : Result (Option (Str × Str)) :=
  match value with
  | .null => .ok none
  | .mapping verifier => do
    let platform ← memberField (Settings.get verifier (lit "platform") .null) validVerifierPlatforms
      (lit "attestation.caller_verifier.platform")
    match (Settings.get verifier (lit "trusted_roots_path") .null).isName with
    | some path => .ok (some (platform, path))
    | none =>
      configError (lit "attestation.caller_verifier.trusted_roots_path must be a non-empty path")
        (some (lit "a PEM bundle of roots the caller's attestation key chain must reach"))
  | _ => configError (lit "attestation.caller_verifier must be a mapping")

/-- The check of `require_caller_attestation` against `caller_verifier`. -/
def appraisableField (requirement : Str) (verifier : Option (Str × Str)) : Result Unit :=
  if requirement = requireHardware ∧ verifier = none then
    configError (lit "attestation.require_caller_attestation 'hardware' needs attestation.caller_verifier")
      (some (lit "a hardware report cannot be appraised without one, so every call would be refused"))
  else .ok ()

/-- `attestation.challenge_ttl_seconds` -/
def ttlField (value : Setting) : Result Int :=
  let refuse := configError (lit "attestation.challenge_ttl_seconds must be a positive integer")
  match value with
  | .int ttl => if ttl < 1 then refuse else .ok ttl
  | _ => refuse

/-- `max_delegation_depth`. A bool is an `int`, and `True` is 1. -/
def depthField (value : Setting) : Result Int :=
  let refuse := configError (lit "max_delegation_depth must be a positive integer")
  match value with
  | .int depth => if depth < 1 then refuse else .ok depth
  | .bool true => .ok 1
  | _ => refuse

/-- A list of texts that are not empty. -/
def namesField (value : Setting) (message : Str) : Result (Finset Str) :=
  match value with
  | .list xs =>
    match xs.mapM Setting.isName with
    | some names => .ok names.toFinset
    | none => configError message
  | _ => configError message

/-- A text, or nothing. -/
def textField? (value : Setting) (message : Str) : Result (Option Str) :=
  match value with
  | .null => .ok none
  | .str s => .ok (some s)
  | _ => configError message

/-- `local_policy` -/
def localPolicyField (value : Setting) : Result (Option (Finset Str)) :=
  match value with
  | .null => .ok none
  | value => do
    let allow ← namesField value (lit "local_policy must be a list of non-empty capability strings")
    .ok (some allow)

/-- `authenticated_subject.startswith("spiffe://")` -/
def isSpiffe (uri : Str) : Bool := (lit "spiffe://").isPrefixOf uri

/-- `agent_manifest` -/
def manifestField (value : Setting) : Result (Option Str × Option Str × Option Str) :=
  match value with
  | .mapping manifest => do
    let path ← textField? (Settings.get manifest (lit "path") .null) (lit "agent_manifest.path must be a string")
    let trustAnchorPath ← textField? (Settings.get manifest (lit "trust_anchor_path") .null)
      (lit "agent_manifest.trust_anchor_path must be a string")
    let subject ← textField? (Settings.get manifest (lit "authenticated_subject") .null)
      (lit "agent_manifest.authenticated_subject must be a string")
    let configured := [path, trustAnchorPath, subject].map Option.isSome
    if configured.any id && !configured.all id then
      configError (lit ("agent_manifest.path, trust_anchor_path, and authenticated_subject " ++ "must be configured together"))
    else if subject.any fun uri => !isSpiffe uri then
      configError (lit "agent_manifest.authenticated_subject must be a SPIFFE URI")
    else .ok (path, trustAnchorPath, subject)
  | _ => configError (lit "agent_manifest must be a mapping")

/-- `data.get("attestation", {}) or {}`, as far as `.get` works on it. -/
def attestationSection (data : Settings) : Result Settings :=
  match Settings.sectionOf data (lit "attestation") with
  | .mapping attestation => .ok attestation
  | value => .error (.builtin .attributeError (lit "'" ++ value.typeName ++ lit "' object has no attribute 'get'"))

/-- `Ca2aConfig.from_dict` -/
def Ca2aConfig.fromDict (data : Settings) : Result Ca2aConfig := do
  let attestation ← attestationSection data
  let provider ← memberField (Settings.get attestation (lit "provider") (.str (lit "auto"))) validProviders
    (lit "attestation provider")
  let enforcementMode ← memberField (Settings.get attestation (lit "enforcement_mode") (.str (lit "enforcing")))
    validEnforcement (lit "enforcement_mode")
  let requireCallerAttestation ← memberField
    (Settings.get attestation (lit "require_caller_attestation") (.str requireNone)) requirementValues
    (lit "attestation.require_caller_attestation")
  let verifier ← verifierField (Settings.get attestation (lit "caller_verifier") .null)
  appraisableField requireCallerAttestation verifier
  let challengeTtlSeconds ← ttlField (Settings.get attestation (lit "challenge_ttl_seconds") (.int defaultTtlSeconds))
  let maxDelegationDepth ← depthField (Settings.get data (lit "max_delegation_depth") (.int 8))
  let localPolicy ← localPolicyField (Settings.get data (lit "local_policy") .null)
  let policyBundlePath ← textField? (Settings.get data (lit "policy_bundle_path") .null)
    (lit "policy_bundle_path must be a string path")
  let listenAddr := Settings.get data (lit "listen_addr") (.str defaultListenAddr)
  let _ ← splitListenAddr listenAddr
  let trustedRootIssuers ← namesField (Settings.get data (lit "trusted_root_issuers") (.list []))
    (lit "trusted_root_issuers must be a list of non-empty public-key strings")
  let manifest ← manifestField (Settings.sectionOf data (lit "agent_manifest"))
  .ok
    { provider
      enforcementMode
      requireCallerAttestation
      callerVerifierPlatform := verifier.map Prod.fst
      callerVerifierTrustedRootsPath := verifier.map Prod.snd
      challengeTtlSeconds
      maxDelegationDepth
      policyBundlePath
      localPolicy
      -- `split_listen_addr` has passed, so it is a text
      listenAddr := match listenAddr with
        | .str s => s
        | _ => []
      trustedRootIssuers
      agentManifestPath := manifest.1
      agentManifestTrustAnchorPath := manifest.2.1
      agentManifestAuthenticatedSubject := manifest.2.2 }

/-- What a path holds for `Ca2aConfig.load`. -/
inductive ConfigFile
  | missing
  /-- `yaml.safe_load(text)` -/
  | document (data : Setting)
  /-- `yaml.YAMLError` -/
  | notYaml (text : Str)
  /-- What else reading the text and loading it raise. -/
  | unreadable (e : Exc)

/-- `Ca2aConfig.load` -/
def Ca2aConfig.load (path : Str) : ConfigFile → Result Ca2aConfig
  | .missing => configError (lit "config file not found: " ++ path)
  | .notYaml text => configError (lit "invalid YAML in " ++ path) (some text)
  | .unreadable e => .error e
  | .document data =>
    match (if data.truthy then data else .mapping []) with
    | .mapping data => Ca2aConfig.fromDict data
    | data => configError (lit "config root must be a mapping, got " ++ data.typeName)

/-! ## What is taken -/

omit [Interp] in
@[simp] theorem configError_ne_ok {α : Type} {message : Str} {detail : Option Str} {a : α} :
    (configError message detail : Result α) ≠ .ok a := by
  simp [configError]

theorem memberField_ok_iff {value : Setting} {valid : Finset Str} {field s : Str} :
    memberField value valid field = .ok s ↔ value = .str s ∧ s ∈ valid := by
  have hunknown : ∀ shown : Result Str, ¬ (do
      let shown ← shown
      configError (lit "unknown " ++ field ++ lit ": " ++ shown)
        (some (lit "expected one of " ++ reprList (sortedStrs valid)))) = (.ok s : Result Str) := by
    intro shown h
    obtain ⟨_, _, h⟩ := bind_ok_iff.mp h
    exact configError_ne_ok h
  unfold memberField
  split
  · simp
  · simp
  · rename_i name
    split
    · rename_i hmem
      rw [Except.ok.injEq, Setting.str.injEq]
      exact ⟨fun h => ⟨h, h ▸ hmem⟩, fun h => h.1⟩
    · rename_i hmem
      refine iff_of_false (hunknown _) fun h => ?_
      cases h.1
      exact hmem h.2
  · rename_i hlist hmapping hstr
    refine iff_of_false (hunknown _) fun h => ?_
    exact hstr s h.1

omit [Interp] in
theorem Setting.isName_eq_some_iff {value : Setting} {s : Str} : value.isName = some s ↔ value = .str s ∧ s ≠ [] := by
  unfold isName
  split
  · simp
  · rename_i name hname
    rw [Option.some.injEq, Setting.str.injEq]
    exact ⟨fun h => ⟨h, fun hs => hname (h.trans hs)⟩, fun h => h.1⟩
  · rename_i hother
    exact iff_of_false (by simp) fun h => hother s h.1

omit [Interp] in
theorem mapM_isName_iff {xs : List Setting} {names : List Str} :
    xs.mapM Setting.isName = some names ↔ xs = names.map .str ∧ [] ∉ names := by
  induction xs generalizing names with
  | nil => cases names <;> simp
  | cons x xs ih =>
    simp only [List.mapM_cons, Option.bind_eq_bind, Option.bind_eq_some_iff, Option.pure_def, Option.some.injEq,
      Setting.isName_eq_some_iff, ih]
    refine ⟨fun h => ?_, fun h => ?_⟩
    · obtain ⟨name, ⟨rfl, hname⟩, names', ⟨rfl, hnames⟩, rfl⟩ := h
      exact ⟨rfl, by simp [hname.symm, hnames]⟩
    · obtain ⟨hxs, hnames⟩ := h
      cases names with
      | nil => cases hxs
      | cons name names =>
        cases hxs
        rw [List.mem_cons, not_or] at hnames
        exact ⟨name, ⟨rfl, fun h => hnames.1 h.symm⟩, names, ⟨rfl, hnames.2⟩, rfl⟩

/-! ## What is raised -/

mutual
/-- A value that cannot be shown holds an integer that is too long. -/
theorem Setting.repr_spec (value : Setting) :
    Spec value.repr (fun _ => True) fun e => ∃ text, e = .builtin .valueError text := by
  cases value with
  | null => exact trivial
  | bool b => cases b <;> exact trivial
  | int i =>
    rw [Setting.repr, Setting.intText]
    split
    · exact trivial
    · exact ⟨_, rfl⟩
  | float f => exact trivial
  | str s => exact trivial
  | list xs =>
    rw [Setting.repr]
    exact (Setting.reprItems_spec xs).bind fun _ _ => trivial
  | mapping d =>
    rw [Setting.repr]
    exact (Setting.reprEntries_spec d).bind fun _ _ => trivial
  | other v => exact trivial

theorem Setting.reprItems_spec (xs : List Setting) :
    Spec (Setting.reprItems xs) (fun _ => True) fun e => ∃ text, e = .builtin .valueError text := by
  cases xs with
  | nil => exact trivial
  | cons x xs =>
    rw [Setting.reprItems]
    exact (Setting.repr_spec x).bind fun _ _ => (Setting.reprItems_spec xs).bind fun _ _ => trivial

theorem Setting.reprEntries_spec (d : List (SettingKey × Setting)) :
    Spec (Setting.reprEntries d) (fun _ => True) fun e => ∃ text, e = .builtin .valueError text := by
  cases d with
  | nil => exact trivial
  | cons entry d =>
    rw [Setting.reprEntries]
    exact (Setting.repr_spec entry.2).bind fun _ _ => (Setting.reprEntries_spec d).bind fun _ _ => trivial
end

/-- A value of a configuration that cannot be looked up in a `frozenset`. -/
def Setting.Unhashable : Setting → Prop
  | .list _ | .mapping _ => True
  | _ => False

/-- The fields that are looked up in a `frozenset`. -/
def Settings.hashed (data : Settings) : List Setting :=
  match Settings.sectionOf data (lit "attestation") with
  | .mapping attestation =>
    [Settings.get attestation (lit "provider") (.str (lit "auto")),
      Settings.get attestation (lit "enforcement_mode") (.str (lit "enforcing")),
      Settings.get attestation (lit "require_caller_attestation") (.str requireNone)] ++
      match Settings.get attestation (lit "caller_verifier") .null with
      | .mapping verifier => [Settings.get verifier (lit "platform") .null]
      | _ => []
  | _ => []

/-- What leaves `from_dict` that is no `ConfigError`. -/
inductive ConfigEscape (data : Settings) : Exc → Prop
  | noMapping {text : Str} (h : ∀ d, Settings.sectionOf data (lit "attestation") ≠ .mapping d) :
    ConfigEscape data (.builtin .attributeError text)
  | unhashable {text : Str} {value : Setting} (h : value ∈ Settings.hashed data) (hvalue : value.Unhashable) :
    ConfigEscape data (.builtin .typeError text)
  | unprintable {text : Str} {value : Setting}
    (h : value ∈ Settings.get data (lit "listen_addr") (.str defaultListenAddr) :: Settings.hashed data)
    (hvalue : value.repr = .error (.builtin .valueError text)) : ConfigEscape data (.builtin .valueError text)

/-- What `from_dict` raises. -/
def ConfigRaises (data : Settings) (e : Exc) : Prop := e.isClass .configError ∨ ConfigEscape data e

theorem memberField_spec {data : Settings} {value : Setting} (h : value ∈ Settings.hashed data) (valid : Finset Str)
    (field : Str) : Spec (memberField value valid field) (fun s => s ∈ valid) (ConfigRaises data) := by
  have hunknown : Spec (do
      let shown ← value.repr
      configError (lit "unknown " ++ field ++ lit ": " ++ shown)
        (some (lit "expected one of " ++ reprList (sortedStrs valid)))) (fun s => s ∈ valid) (ConfigRaises data) := by
    cases hshown : value.repr with
    | error e =>
      obtain ⟨text, rfl⟩ := value.repr_spec.of_error hshown
      exact .inr (.unprintable (List.mem_cons_of_mem _ h) hshown)
    | ok shown => exact .inl rfl
  unfold memberField
  split
  · exact .inr (.unhashable h trivial)
  · exact .inr (.unhashable h trivial)
  · split
    · rename_i hmem
      exact hmem
    · exact hunknown
  · exact hunknown


/-- What every configuration keeps that a file is taken for. -/
structure Ca2aConfig.Valid (config : Ca2aConfig) : Prop where
  provider : config.provider ∈ validProviders
  enforcementMode : config.enforcementMode ∈ validEnforcement
  requirement : config.requireCallerAttestation ∈ requirementValues
  verifier : config.callerVerifierPlatform = none ∧ config.callerVerifierTrustedRootsPath = none ∨
    ∃ platform path, config.callerVerifierPlatform = some platform ∧ platform ∈ validVerifierPlatforms ∧
      config.callerVerifierTrustedRootsPath = some path ∧ path ≠ []
  appraisable : config.requireCallerAttestation = requireHardware → config.callerVerifierPlatform ≠ none
  ttl : 1 ≤ config.challengeTtlSeconds
  depth : 1 ≤ config.maxDelegationDepth
  localPolicy : ∀ allow, config.localPolicy = some allow → [] ∉ allow
  listenAddr : ∃ host port, config.listenHostPort = .ok (host, port)
  roots : [] ∉ config.trustedRootIssuers
  manifest : config.agentManifestPath = none ∧ config.agentManifestTrustAnchorPath = none ∧
      config.agentManifestAuthenticatedSubject = none ∨
    ∃ path anchor subject, config.agentManifestPath = some path ∧ config.agentManifestTrustAnchorPath = some anchor ∧
      config.agentManifestAuthenticatedSubject = some subject ∧ isSpiffe subject = true

theorem verifierField_spec {data : Settings} {value : Setting}
    (h : ∀ verifier, value = .mapping verifier → Settings.get verifier (lit "platform") .null ∈ Settings.hashed data) :
    Spec (verifierField value)
      (fun verifier => ∀ v, verifier = some v → v.1 ∈ validVerifierPlatforms ∧ v.2 ≠ []) (ConfigRaises data) := by
  unfold verifierField
  split
  · exact fun v hv => by cases hv
  · rename_i verifier
    refine (memberField_spec (h verifier rfl) _ _).bind fun platform hplatform => ?_
    split
    · rename_i path hpath
      intro v hv
      cases hv
      exact ⟨hplatform, (Setting.isName_eq_some_iff.mp hpath).2⟩
    · exact .inl rfl
  · exact .inl rfl

theorem ttlField_spec {data : Settings} (value : Setting) :
    Spec (ttlField value) (fun ttl => 1 ≤ ttl) (ConfigRaises data) := by
  unfold ttlField
  split
  · split
    · exact .inl rfl
    · rename_i httl
      exact not_lt.mp httl
  · exact .inl rfl

theorem depthField_spec {data : Settings} (value : Setting) :
    Spec (depthField value) (fun depth => 1 ≤ depth) (ConfigRaises data) := by
  unfold depthField
  split
  · split
    · exact .inl rfl
    · rename_i hdepth
      exact not_lt.mp hdepth
  · exact le_refl 1
  · exact .inl rfl

theorem namesField_spec {data : Settings} (value : Setting) (message : Str) :
    Spec (namesField value message) (fun names => [] ∉ names) (ConfigRaises data) := by
  unfold namesField
  split
  · split
    · rename_i hnames
      rw [spec_ok, List.mem_toFinset]
      exact (mapM_isName_iff.mp hnames).2
    · exact .inl rfl
  · exact .inl rfl

theorem localPolicyField_spec {data : Settings} (value : Setting) :
    Spec (localPolicyField value) (fun policy => ∀ allow, policy = some allow → [] ∉ allow) (ConfigRaises data) := by
  unfold localPolicyField
  split
  · exact fun allow h => by cases h
  · refine (namesField_spec _ _).bind fun names hnames => ?_
    intro allow h
    cases h
    exact hnames

theorem textField?_spec {data : Settings} (value : Setting) (message : Str) :
    Spec (textField? value message) (fun _ => True) (ConfigRaises data) := by
  unfold textField?
  split
  · exact trivial
  · exact trivial
  · exact .inl rfl

theorem splitAddr_spec {data : Settings} (addr : Str) : Spec (splitAddr addr) (fun _ => True) (ConfigRaises data) := by
  unfold splitAddr
  split
  · exact .inl rfl
  dsimp only
  split
  · exact .inl rfl
  split
  · exact .inl rfl
  split
  · exact trivial
  · exact .inl rfl

theorem splitListenAddr_spec (data : Settings) :
    Spec (splitListenAddr (Settings.get data (lit "listen_addr") (.str defaultListenAddr)))
      (fun listen => ∃ s, Settings.get data (lit "listen_addr") (.str defaultListenAddr) = .str s ∧
        splitAddr s = .ok listen) (ConfigRaises data) := by
  unfold splitListenAddr
  split
  · rename_i s hs
    cases hsplit : splitAddr s with
    | ok listen => exact ⟨s, hs, hsplit⟩
    | error e => exact (splitAddr_spec s).of_error hsplit
  · cases hshown : (Settings.get data (lit "listen_addr") (.str defaultListenAddr)).repr with
    | error e =>
      obtain ⟨text, rfl⟩ := (Setting.repr_spec _).of_error hshown
      exact .inr (.unprintable List.mem_cons_self hshown)
    | ok shown => exact .inl rfl

theorem manifestField_spec {data : Settings} (value : Setting) :
    Spec (manifestField value)
      (fun m => m = (none, none, none) ∨
        ∃ path anchor subject, m = (some path, some anchor, some subject) ∧ isSpiffe subject = true)
      (ConfigRaises data) := by
  unfold manifestField
  split
  · refine (textField?_spec _ _).bind fun path _ => (textField?_spec _ _).bind fun anchor _ =>
      (textField?_spec _ _).bind fun subject _ => ?_
    dsimp only
    split
    · exact .inl rfl
    rename_i htogether
    split
    · exact .inl rfl
    rename_i hsubject
    cases path <;> cases anchor <;> cases subject <;> simp_all
  · exact .inl rfl

theorem attestationSection_spec (data : Settings) :
    Spec (attestationSection data) (fun d => Settings.sectionOf data (lit "attestation") = .mapping d)
      (ConfigRaises data) := by
  unfold attestationSection
  split
  · rename_i hsection
    exact hsection
  · rename_i hsection
    exact .inr (.noMapping hsection)

/-- **What `from_dict` takes, and what it raises.** -/
theorem Ca2aConfig.fromDict_spec (data : Settings) :
    Spec (Ca2aConfig.fromDict data) Ca2aConfig.Valid (ConfigRaises data) := by
  unfold fromDict
  refine (attestationSection_spec data).bind fun attestation hsection => ?_
  have hhashed : Settings.hashed data = [Settings.get attestation (lit "provider") (.str (lit "auto")),
      Settings.get attestation (lit "enforcement_mode") (.str (lit "enforcing")),
      Settings.get attestation (lit "require_caller_attestation") (.str requireNone)] ++
      match Settings.get attestation (lit "caller_verifier") .null with
      | .mapping verifier => [Settings.get verifier (lit "platform") .null]
      | _ => [] := by
    rw [Settings.hashed, hsection]
  refine (memberField_spec (by simp [hhashed]) _ _).bind fun provider hprovider => ?_
  refine (memberField_spec (by simp [hhashed]) _ _).bind fun enforcement henforcement => ?_
  refine (memberField_spec (by simp [hhashed]) _ _).bind fun requirement hrequirement => ?_
  refine (verifierField_spec fun verifier hverifier => by simp [hhashed, hverifier]).bind fun verifier hverifier => ?_
  have happraisable : Spec (appraisableField requirement verifier)
      (fun _ => requirement = requireHardware → verifier ≠ none) (ConfigRaises data) := by
    unfold appraisableField
    split
    · exact .inl rfl
    · rename_i h
      exact fun hreq hnone => h ⟨hreq, hnone⟩
  refine happraisable.bind fun _ happraisable => (ttlField_spec _).bind fun ttl httl => (depthField_spec _).bind fun depth hdepth =>
    (localPolicyField_spec _).bind fun policy hpolicy => (textField?_spec _ _).bind fun bundle _ =>
    (splitListenAddr_spec data).bind fun listen hlisten => (namesField_spec _ _).bind fun roots hroots =>
    (manifestField_spec _).bind fun manifest hmanifest => ?_
  obtain ⟨s, hs, hsplit⟩ := hlisten
  refine ⟨hprovider, henforcement, hrequirement, ?_, ?_, httl, hdepth, hpolicy, ⟨listen.1, listen.2, ?_⟩, hroots, ?_⟩
  · cases verifier with
    | none => exact .inl ⟨rfl, rfl⟩
    | some v => exact .inr ⟨v.1, v.2, rfl, (hverifier v rfl).1, rfl, (hverifier v rfl).2⟩
  · intro hreq
    simpa using happraisable hreq
  · simp only [listenHostPort, hs]
    exact hsplit
  · rcases hmanifest with rfl | ⟨path, anchor, subject, rfl, hsubject⟩
    · exact .inl ⟨rfl, rfl, rfl⟩
    · exact .inr ⟨path, anchor, subject, rfl, rfl, rfl, hsubject⟩

/-! ## What can be written -/

/-- A text that may be missing. -/
def optSetting : Option Str → Setting
  | none => .null
  | some s => .str s

/-- Texts, in their order. -/
def namesSetting (names : Finset Str) : Setting := .list ((sortedStrs names).map .str)

/-- `caller_verifier`, as a file may have it. -/
def Ca2aConfig.verifierSetting (config : Ca2aConfig) : Setting :=
  match config.callerVerifierPlatform with
  | none => .null
  | some platform => .mapping
      [(.text (lit "platform"), .str platform),
        (.text (lit "trusted_roots_path"), optSetting config.callerVerifierTrustedRootsPath)]

/-- `local_policy`, as a file may have it. -/
def Ca2aConfig.localPolicySetting (config : Ca2aConfig) : Setting :=
  match config.localPolicy with
  | none => .null
  | some allow => namesSetting allow

/-- `attestation`, as a file may have it. -/
def Ca2aConfig.attestationSettings (config : Ca2aConfig) : Settings :=
  [(.text (lit "provider"), .str config.provider),
    (.text (lit "enforcement_mode"), .str config.enforcementMode),
    (.text (lit "require_caller_attestation"), .str config.requireCallerAttestation),
    (.text (lit "caller_verifier"), config.verifierSetting),
    (.text (lit "challenge_ttl_seconds"), .int config.challengeTtlSeconds)]

/-- `agent_manifest`, as a file may have it. -/
def Ca2aConfig.manifestSettings (config : Ca2aConfig) : Settings :=
  [(.text (lit "path"), optSetting config.agentManifestPath),
    (.text (lit "trust_anchor_path"), optSetting config.agentManifestTrustAnchorPath),
    (.text (lit "authenticated_subject"), optSetting config.agentManifestAuthenticatedSubject)]

/-- A configuration as a file may have it. -/
def Ca2aConfig.toSettings (config : Ca2aConfig) : Settings :=
  [(.text (lit "attestation"), .mapping config.attestationSettings),
    (.text (lit "max_delegation_depth"), .int config.maxDelegationDepth),
    (.text (lit "local_policy"), config.localPolicySetting),
    (.text (lit "policy_bundle_path"), optSetting config.policyBundlePath),
    (.text (lit "listen_addr"), .str config.listenAddr),
    (.text (lit "trusted_root_issuers"), namesSetting config.trustedRootIssuers),
    (.text (lit "agent_manifest"), .mapping config.manifestSettings)]

theorem memberField_of_mem {s : Str} {valid : Finset Str} (h : s ∈ valid) (field : Str) :
    memberField (.str s) valid field = .ok s := memberField_ok_iff.mpr ⟨rfl, h⟩

omit [Interp] in
theorem namesField_namesSetting {names : Finset Str} (h : [] ∉ names) (message : Str) :
    namesField (namesSetting names) message = .ok names := by
  have hnames : ((sortedStrs names).map Setting.str).mapM Setting.isName = some (sortedStrs names) :=
    mapM_isName_iff.mpr ⟨rfl, fun hmem => h (mem_sortedStrs.mp hmem)⟩
  simp only [namesField, namesSetting, hnames]
  rw [sortedStrs, Finset.sort_toFinset]

omit [Interp] in
theorem textField?_optSetting (s : Option Str) (message : Str) : textField? (optSetting s) message = .ok s := by
  cases s <;> rfl

theorem Ca2aConfig.Valid.verifierField {config : Ca2aConfig} (h : config.Valid) :
    ∃ verifier, verifierField config.verifierSetting = .ok verifier ∧
      verifier.map Prod.fst = config.callerVerifierPlatform ∧
      verifier.map Prod.snd = config.callerVerifierTrustedRootsPath := by
  rcases h.verifier with ⟨hplatform, hpath⟩ | ⟨platform, path, hplatform, hmem, hpath, hne⟩
  · exact ⟨none, by rw [verifierSetting, hplatform]; rfl, hplatform.symm, hpath.symm⟩
  · refine ⟨some (platform, path), ?_, hplatform.symm, hpath.symm⟩
    have hname : (Setting.str path).isName = some path := Setting.isName_eq_some_iff.mpr ⟨rfl, hne⟩
    rw [verifierSetting, hplatform, hpath]
    simp [Ca2a.verifierField, lit_inj, memberField_of_mem hmem, optSetting, hname, ok_bind]

theorem Ca2aConfig.Valid.localPolicyField {config : Ca2aConfig} (h : config.Valid) :
    localPolicyField config.localPolicySetting = .ok config.localPolicy := by
  rw [localPolicySetting]
  cases hpolicy : config.localPolicy with
  | none => rfl
  | some allow =>
    have hnames := namesField_namesSetting (h.localPolicy allow hpolicy)
      (lit "local_policy must be a list of non-empty capability strings")
    simp only [namesSetting] at hnames ⊢
    simp only [Ca2a.localPolicyField, hnames, ok_bind]

theorem Ca2aConfig.Valid.manifestField {config : Ca2aConfig} (h : config.Valid) :
    manifestField (.mapping config.manifestSettings) =
      .ok (config.agentManifestPath, config.agentManifestTrustAnchorPath, config.agentManifestAuthenticatedSubject) := by
  have hpath : Settings.get config.manifestSettings (lit "path") .null = optSetting config.agentManifestPath := by
    simp [manifestSettings]
  have hanchor : Settings.get config.manifestSettings (lit "trust_anchor_path") .null =
      optSetting config.agentManifestTrustAnchorPath := by
    simp [manifestSettings]
  have hsubject : Settings.get config.manifestSettings (lit "authenticated_subject") .null =
      optSetting config.agentManifestAuthenticatedSubject := by
    simp [manifestSettings]
  unfold Ca2a.manifestField
  dsimp only
  rw [hpath, hanchor, hsubject, textField?_optSetting, textField?_optSetting, textField?_optSetting, ok_bind, ok_bind, ok_bind]
  rcases h.manifest with ⟨h₁, h₂, h₃⟩ | ⟨path, anchor, subject, h₁, h₂, h₃, hspiffe⟩
  · rw [h₁, h₂, h₃]
    rfl
  · rw [h₁, h₂, h₃, if_neg (by simp), if_neg (by simp [hspiffe])]

omit [Interp] in
theorem attestationSection_toSettings (config : Ca2aConfig) :
    attestationSection config.toSettings = .ok config.attestationSettings := by
  have hsection : Settings.sectionOf config.toSettings (lit "attestation") = .mapping config.attestationSettings := by
    simp [Settings.sectionOf, Ca2aConfig.toSettings, Setting.truthy, Ca2aConfig.attestationSettings]
  rw [attestationSection, hsection]

/-- **What is valid can be written.** -/
theorem Ca2aConfig.fromDict_toSettings {config : Ca2aConfig} (h : config.Valid) :
    Ca2aConfig.fromDict config.toSettings = .ok config := by
  obtain ⟨host, port, hlisten⟩ := h.listenAddr
  obtain ⟨verifier, hverifier, hplatform, hpath⟩ := h.verifierField
  have happraisable : appraisableField config.requireCallerAttestation verifier = .ok () := by
    refine if_neg fun hboth => h.appraisable hboth.1 ?_
    rw [← hplatform, hboth.2]
    rfl
  have httl : ttlField (.int config.challengeTtlSeconds) = .ok config.challengeTtlSeconds := if_neg (not_lt.mpr h.ttl)
  have hdepth : depthField (.int config.maxDelegationDepth) = .ok config.maxDelegationDepth := if_neg (not_lt.mpr h.depth)
  have hsplit : splitListenAddr (.str config.listenAddr) = .ok (host, port) := hlisten
  have hsection : Settings.sectionOf config.toSettings (lit "agent_manifest") = .mapping config.manifestSettings := by
    simp [Settings.sectionOf, toSettings, Setting.truthy, manifestSettings]
  have hget : ∀ default,
      Settings.get config.attestationSettings (lit "provider") default = .str config.provider ∧
      Settings.get config.attestationSettings (lit "enforcement_mode") default = .str config.enforcementMode ∧
      Settings.get config.attestationSettings (lit "require_caller_attestation") default =
        .str config.requireCallerAttestation ∧
      Settings.get config.attestationSettings (lit "caller_verifier") default = config.verifierSetting ∧
      Settings.get config.attestationSettings (lit "challenge_ttl_seconds") default = .int config.challengeTtlSeconds := by
    simp [attestationSettings]
  have hget' : ∀ default,
      Settings.get config.toSettings (lit "max_delegation_depth") default = .int config.maxDelegationDepth ∧
      Settings.get config.toSettings (lit "local_policy") default = config.localPolicySetting ∧
      Settings.get config.toSettings (lit "policy_bundle_path") default = optSetting config.policyBundlePath ∧
      Settings.get config.toSettings (lit "listen_addr") default = .str config.listenAddr ∧
      Settings.get config.toSettings (lit "trusted_root_issuers") default = namesSetting config.trustedRootIssuers := by
    simp [toSettings]
  unfold fromDict
  rw [attestationSection_toSettings, ok_bind, (hget _).1, memberField_of_mem h.provider, ok_bind, (hget _).2.1,
    memberField_of_mem h.enforcementMode, ok_bind, (hget _).2.2.1, memberField_of_mem h.requirement, ok_bind,
    (hget _).2.2.2.1, hverifier, ok_bind, happraisable, ok_bind, (hget _).2.2.2.2, httl, ok_bind, (hget' _).1, hdepth,
    ok_bind, (hget' _).2.1, h.localPolicyField, ok_bind, (hget' _).2.2.1, textField?_optSetting, ok_bind]
  dsimp only
  rw [(hget' _).2.2.2.1, hsplit, ok_bind, (hget' _).2.2.2.2, namesField_namesSetting h.roots, ok_bind, hsection,
    h.manifestField, ok_bind, hplatform, hpath]

theorem Ca2aConfig.load_mapping (path : Str) (data : Settings) :
    Ca2aConfig.load path (.document (.mapping data)) = Ca2aConfig.fromDict data := by
  cases data with
  | nil => rfl
  | cons entry data => rfl

/-- The mapping that a file holds: an empty one where its document is false. -/
def ConfigFile.mapping? : ConfigFile → Option Settings
  | .document data =>
    match (if data.truthy then data else .mapping []) with
    | .mapping data => some data
    | _ => none
  | _ => none

/-- What `load` takes a file for is valid; what it raises is a `ConfigError`, but for what reading the file raises and what
escapes from its fields. -/
theorem Ca2aConfig.load_spec (path : Str) (file : ConfigFile) :
    Spec (Ca2aConfig.load path file) Ca2aConfig.Valid
      fun e => e.isClass .configError ∨ file = .unreadable e ∨ ∃ data, file.mapping? = some data ∧ ConfigEscape data e := by
  cases file with
  | missing => exact .inl rfl
  | notYaml text => exact .inl rfl
  | unreadable e => exact .inr (.inl rfl)
  | document data =>
    unfold load ConfigFile.mapping?
    dsimp only
    generalize (if data.truthy then data else Setting.mapping []) = root
    cases root with
    | mapping d => exact (fromDict_spec d).mono (fun _ h => h) fun e h => h.imp_right fun h => .inr ⟨d, rfl, h⟩
    | _ => exact .inl rfl

/-- **The configurations of files are the valid ones.** Whatever a file holds, what `load` takes it for is valid, and every
valid configuration is what it takes some file for. A mapping is refused with a `ConfigError`, except where `attestation` is
true and no mapping, where a value that has to be looked up among texts is a list or a mapping, or where one that a message
shows has no `repr`; the first two are never taken for a refusal. -/
theorem Ca2aConfig.load_valid_iff (path : Str) :
    (∀ config : Ca2aConfig, config.Valid ↔ ∃ file, Ca2aConfig.load path file = .ok config) ∧
    (∀ data e, Ca2aConfig.load path (.document (.mapping data)) = .error e → ConfigRaises data e) ∧
    (∀ data, (∀ attestation, Settings.sectionOf data (lit "attestation") ≠ .mapping attestation) →
      ∃ text, Ca2aConfig.load path (.document (.mapping data)) = .error (.builtin .attributeError text)) ∧
    ∀ data attestation, Settings.sectionOf data (lit "attestation") = .mapping attestation →
      (Settings.get attestation (lit "provider") (.str (lit "auto"))).Unhashable →
      ∃ text, Ca2aConfig.load path (.document (.mapping data)) = .error (.builtin .typeError text) := by
  refine ⟨fun config => ⟨fun h => ⟨.document (.mapping config.toSettings), ?_⟩, fun h => ?_⟩, fun data e h => ?_,
    fun data hsection => ?_, fun data attestation hsection hprovider => ?_⟩
  · rw [load_mapping, fromDict_toSettings h]
  · obtain ⟨file, h⟩ := h
    exact (load_spec path file).of_ok h
  · rw [load_mapping] at h
    exact (fromDict_spec data).of_error h
  · rw [load_mapping]
    have hraises : ∃ text, attestationSection data = .error (.builtin .attributeError text) := by
      unfold attestationSection
      split
      · rename_i d hd
        exact absurd hd (hsection d)
      · exact ⟨_, rfl⟩
    obtain ⟨text, hraises⟩ := hraises
    exact ⟨text, by rw [fromDict, hraises]; rfl⟩
  · rw [load_mapping, fromDict, attestationSection, hsection]
    have hraises : ∃ text, memberField (Settings.get attestation (lit "provider") (.str (lit "auto"))) validProviders
        (lit "attestation provider") = .error (.builtin .typeError text) := by
      generalize Settings.get attestation (lit "provider") (.str (lit "auto")) = value at hprovider
      cases value with
      | list xs => exact ⟨_, rfl⟩
      | mapping d => exact ⟨_, rfl⟩
      | _ => exact hprovider.elim
    obtain ⟨text, hraises⟩ := hraises
    exact ⟨text, by rw [ok_bind, hraises]; rfl⟩
end

/-- An empty file is a configuration, and is written back as one; a list for `attestation` or for its provider is taken for
no refusal. -/
theorem load_valid_iff_emptyFile :
    let _ := Interp.ascii
    let path := lit "ca2a.yaml"
    (∃ config file, Ca2aConfig.load path (.document .null) = .ok config ∧ config.Valid ∧
      Ca2aConfig.load path file = .ok config) ∧
    (∃ text, Ca2aConfig.load path (.document (.mapping [(.text (lit "attestation"), .list [.null])])) =
      .error (.builtin .attributeError text)) ∧
    (∃ text, Ca2aConfig.load path (.document (.mapping [(.text (lit "attestation"),
      .mapping [(.text (lit "provider"), .list [])])])) = .error (.builtin .typeError text)) ∧
    ∃ e, Ca2aConfig.load path (.document (.mapping [(.text (lit "max_delegation_depth"), .int 0)])) = .error e ∧
      ConfigRaises [(.text (lit "max_delegation_depth"), .int 0)] e := by
  intro _ path
  obtain ⟨hvalid, hraises, hattribute, htype⟩ := Ca2aConfig.load_valid_iff path
  refine ⟨?_, hattribute _ (fun _ h => by cases h), htype _ _ rfl trivial, ?_⟩
  · obtain ⟨config, hload⟩ : ∃ config, Ca2aConfig.load path (.document .null) = .ok config :=
      exists_of_isOk (by decide +kernel)
    have h := (hvalid config).mpr ⟨_, hload⟩
    obtain ⟨file, hfile⟩ := (hvalid config).mp h
    exact ⟨config, file, hload, h, hfile⟩
  · cases hload : Ca2aConfig.load path (.document (.mapping [(.text (lit "max_delegation_depth"), .int 0)])) with
    | error e => exact ⟨e, rfl, hraises _ e hload⟩
    | ok config =>
      have hrefused : (Ca2aConfig.load path (.document (.mapping [(.text (lit "max_delegation_depth"), .int 0)]))).isOk =
        false := by decide +kernel
      rw [hload] at hrefused
      cases hrefused

end Ca2a
