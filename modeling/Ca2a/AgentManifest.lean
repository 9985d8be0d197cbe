/-
`ca2a_runtime.agent_manifest`: the identity document a node is started with.

The document is JSON, or a COSE envelope that the library decodes and
verifies; the keys it is verified under come from the trust anchor file, each
named by its digest. The identity is read only after the library has said that
the document verifies, and has to be the subject that was configured.
-/
import Ca2a.Config
import Ca2a.TraceEmission

namespace Ca2a

open Py

/-- `LoadedAgentManifest` -/
structure LoadedAgentManifest where
  manifest : Dict Json
  envelope : Option Bytes := none

/-- `AgentManifestBinding` -/
structure AgentManifestBinding where
  manifestId : Str
  agentId : Str
  issuer : Str
  authenticatedSubject : Str
  version : Str
  verificationScope : Str := lit "signature-and-identity"
  deriving DecidableEq

/-- What `verify_manifest` says of a document. -/
structure ManifestVerdict where
  /-- `result.result == OverallResult.VALID` -/
  valid : Bool
  /-- `result.result.value` -/
  result : Str
  /-- `getattr(result, "warnings", None) or []` -/
  warnings : List Str
  /-- `result.signature_verified is True` -/
  signatureVerified : Bool

/-- What `agent_manifest` does with manifests. -/
structure ManifestSdk where
  /-- `COSE_MANIFEST_VERSION` -/
  coseManifestVersion : Str
  /-- `decode_cose_manifest(raw).manifest`, or the text of what it raises. -/
  decodeCose : (raw : Bytes) → Except Str Json
  /-- `verify_manifest`, of an envelope or of a document, under the keys and without a revocation. -/
  verifyManifest : (artifact : Bytes ⊕ Dict Json) → (trustedKeys : Dict Str) → Result ManifestVerdict

/-- What a path holds for `load_agent_manifest_document`. -/
inductive ManifestFile
  /-- `OSError` -/
  | unreadable (text : Str)
  /-- `json.loads(raw)` -/
  | document (data : Json)
  /-- `JSONDecodeError` or `UnicodeDecodeError` -/
  | notJson (raw : Bytes)
  /-- What else reading the octets and `json.loads(raw)` raise. -/
  | raises (e : Exc)

/-- What a path holds for `load_agent_manifest_trust_anchor`. -/
inductive AnchorFile
  /-- `OSError` or `JSONDecodeError` -/
  | unreadable (text : Str)
  | document (data : Json)
  /-- What else reading the text and decoding it raise. -/
  | raises (e : Exc)

/-- `bool(value)` -/
def isTrue : Json → Bool
  | .null => false
  | .bool b => b
  | .int i => i ≠ 0
  | .float f => f ≠ .finite 0 && f ≠ .negZero
  | .str s => s ≠ []
  | .arr xs => !xs.isEmpty
  | .obj d => !d.isEmpty

section
variable [Interp] [Crypto]

/-- `_key_id` -/
def anchorKeyId (publicKey : Bytes) : Str := hex (Crypto.sha256 publicKey)

omit [Crypto] in
/-- `_b64url_decode` -/
def anchorKeyDecode (value : Str) : Result Bytes :=
  if value.all (fun c => (b64Val? c).isSome) then
    catchBuiltin ExcKind.isValueError (b64urlDecodePadded value) fun _ =>
      configError (lit "Agent Manifest signature/key is not valid base64url")
  else configError (lit "Agent Manifest signature/key must use base64url encoding")

omit [Interp] [Crypto] in
/-- `load_agent_manifest_document` -/
def loadAgentManifestDocument (sdk : ManifestSdk) : ManifestFile → Result LoadedAgentManifest
  | .unreadable text => configError (lit "cannot read Agent Manifest: " ++ text)
  | .raises e => .error e
  | .notJson raw =>
    match sdk.decodeCose raw with
    | .error text => configError (lit "cannot read Agent Manifest: not JSON and not a COSE envelope (" ++ text ++ lit ")")
    | .ok (.obj manifest) => .ok ⟨manifest, some raw⟩
    | .ok _ => configError (lit "Agent Manifest COSE payload must be a JSON object")
  | .document (.obj manifest) =>
    if (Dict.get? manifest (lit "version")).bind Json.str? = some sdk.coseManifestVersion ∧
        Dict.has manifest (lit "signature") = false then
      configError (lit "Agent Manifest declares version " ++ sdk.coseManifestVersion ++
        lit " but was supplied as bare JSON; v0.2 requires the COSE envelope")
    else .ok ⟨manifest, none⟩
  | .document _ => configError (lit "Agent Manifest must be a JSON object")

/-- The key of an item of a trust anchor, under its name. -/
def anchorKey (item : Json) : Result (Str × Bytes) :=
  match item with
  | .obj d => do
    let publicKey ← anchorKeyDecode ((Dict.get? d (lit "public_key_base64url")).getD (.str [])).text
    if publicKey.length ≠ 32 then
      configError (lit "Agent Manifest trust anchor contains an invalid Ed25519 key")
    else
      let named := (Dict.get? d (lit "key_id")).getD .null
      let keyId := if isTrue named then named.text else anchorKeyId publicKey
      if keyId ≠ anchorKeyId publicKey then
        configError (lit "Agent Manifest trust anchor key_id does not match public key")
      else .ok (keyId, publicKey)
  | _ => configError (lit "Agent Manifest trust anchor keys must be objects")

/-- The items of a trust anchor. -/
def anchorItems (raw : Json) : Result (List Json) :=
  let refuse := configError (lit "Agent Manifest trust anchor must contain public_key_base64url or keys[]")
  match raw with
  | .obj d =>
    if Dict.has d (lit "public_key_base64url") then .ok [.obj d]
    else
      match Dict.get? d (lit "keys") with
      | some (.arr items) => .ok items
      | _ => refuse
  | _ => refuse

/-- `load_agent_manifest_trust_anchor` -/
def loadAgentManifestTrustAnchor : AnchorFile → Result (Dict Bytes)
  | .unreadable text => configError (lit "cannot read Agent Manifest trust anchor: " ++ text)
  | .raises e => .error e
  | .document raw => do
    let items ← anchorItems raw
    let keys ← items.mapM anchorKey
    .ok (keys.foldl (fun anchors key => Dict.set anchors key.1 key.2) [])

omit [Interp] [Crypto] in
/-- A field of a manifest that has to be a text with some property. -/
def identityField (manifest : Dict Json) (field : Str) (p : Str → Bool) (message : Str) : Result Str :=
  match Dict.get? manifest field with
  | some (.str s) => if p s then .ok s else configError message
  | _ => configError message

omit [Interp] [Crypto] in
/-- `loaded.envelope if loaded.envelope is not None else loaded.manifest` -/
def LoadedAgentManifest.artifact (loaded : LoadedAgentManifest) : Bytes ⊕ Dict Json :=
  match loaded.envelope with
  | some envelope => .inl envelope
  | none => .inr loaded.manifest

omit [Crypto] [Interp] in
/-- `verify_agent_manifest_binding` -/
def verifyAgentManifestBinding (sdk : ManifestSdk) (loaded : LoadedAgentManifest) (trustedKeys : Dict Bytes)
    (authenticatedSubject : Str) : Result AgentManifestBinding := do
  let verdict ← sdk.verifyManifest loaded.artifact (trustedKeys.map fun entry => (entry.1, b64urlEncode entry.2))
  if verdict.valid = false then
    let warnings := join (lit "; ") verdict.warnings
    let detail := if warnings = [] then [] else lit ": " ++ warnings
    configError (lit "Agent Manifest verification failed (" ++ verdict.result ++ lit ")" ++ detail)
  else if verdict.signatureVerified = false then
    configError (lit "Agent Manifest signature verification failed")
  else do
    let manifestId ← identityField loaded.manifest (lit "manifest_id") (· ≠ []) (lit "Agent Manifest manifest_id is missing")
    let agentId ← identityField loaded.manifest (lit "agent_id") isSpiffe
      (lit "Agent Manifest agent_id must be a SPIFFE URI")
    let issuer ← identityField loaded.manifest (lit "issuer") isSpiffe (lit "Agent Manifest issuer must be a SPIFFE URI")
    let version ← identityField loaded.manifest (lit "version") (· ≠ []) (lit "Agent Manifest version is missing")
    if isSpiffe authenticatedSubject = false then
      configError (lit "Agent Manifest authenticated_subject must be a SPIFFE URI")
    else if authenticatedSubject ≠ agentId then
      configError (lit "Agent Manifest agent_id does not match authenticated_subject")
    else .ok { manifestId, agentId, issuer, authenticatedSubject, version }

/-! ## The trust anchor -/

/-- A key that is what it is named. -/
def AnchorKeyValid (entry : Str × Bytes) : Prop := entry.2.length = 32 ∧ entry.1 = anchorKeyId entry.2

omit [Crypto] in
theorem anchorKeyDecode_spec (value : Str) :
    Spec (anchorKeyDecode value) (fun _ => True) fun e => e.isClass .configError := by
  unfold anchorKeyDecode
  split
  · refine catchBuiltin_spec ?_ fun t => rfl
    unfold b64urlDecodePadded urlsafeB64decode
    split
    · split
      · exact trivial
      · exact .inr ⟨_, _, rfl, rfl⟩
    · exact .inr ⟨_, _, rfl, rfl⟩
  · exact rfl

theorem anchorKey_spec (item : Json) : Spec (anchorKey item) AnchorKeyValid fun e => e.isClass .configError := by
  unfold anchorKey
  split
  · refine (anchorKeyDecode_spec _).bind fun publicKey _ => ?_
    split
    · exact rfl
    rename_i hlength
    dsimp only
    generalize (if isTrue _ then _ else _ : Str) = keyId
    split
    · exact rfl
    rename_i hkey
    exact ⟨not_not.mp hlength, not_not.mp hkey⟩
  · exact rfl

omit [Interp] [Crypto] in
theorem mem_foldl_set {α : Type} {p : Str × α → Prop} {keys : List (Str × α)} {d : Dict α} (hd : ∀ entry ∈ d, p entry)
    (hkeys : ∀ key ∈ keys, p key) : ∀ entry ∈ keys.foldl (fun d key => Dict.set d key.1 key.2) d, p entry := by
  have hset : ∀ (d : Dict α) (k : Str) (v : α), (∀ entry ∈ d, p entry) → p (k, v) → ∀ entry ∈ Dict.set d k v, p entry := by
    intro d k v hd hv
    induction d with
    | nil => simpa [Dict.set] using hv
    | cons first d ih =>
      rw [List.forall_mem_cons] at hd
      obtain ⟨key, value⟩ := first
      rw [Dict.set]
      split
      · rename_i hkey
        exact List.forall_mem_cons.mpr ⟨hkey ▸ hv, hd.2⟩
      · exact List.forall_mem_cons.mpr ⟨hd.1, ih hd.2⟩
  induction keys generalizing d with
  | nil => exact hd
  | cons key keys ih =>
    rw [List.forall_mem_cons] at hkeys
    exact ih (hset d key.1 key.2 hd hkeys.1) hkeys.2

/-- What an anchor file is taken for, and refused with. -/
theorem loadAgentManifestTrustAnchor_spec (file : AnchorFile) :
    Spec (loadAgentManifestTrustAnchor file) (fun anchors => ∀ entry ∈ anchors, AnchorKeyValid entry)
      fun e => e.isClass .configError ∨ file = .raises e := by
  cases file with
  | unreadable text => exact .inl rfl
  | raises e => exact .inr rfl
  | document raw =>
    have hitems : Spec (anchorItems raw) (fun _ => True) fun e => e.isClass .configError := by
      unfold anchorItems
      split
      · split
        · exact trivial
        · split
          · exact trivial
          · exact rfl
      · exact rfl
    refine Spec.mono (?_ : Spec _ _ fun e => e.isClass .configError) (fun _ h => h) fun e h => .inl h
    refine hitems.bind fun items _ => ?_
    cases hkeys : items.mapM anchorKey with
    | error e => exact (Spec.mapM fun item _ => (anchorKey_spec item).mono (fun _ _ => trivial) fun _ h => h).of_error hkeys
    | ok keys =>
      refine mem_foldl_set (by simp) fun key hkey => ?_
      obtain ⟨item, _, hitem⟩ := forall₂_mem_left (mapM_ok_iff.mp hkeys).flip hkey
      exact (anchorKey_spec item).of_ok hitem

/-- An item of a trust anchor, as a file may have it. -/
def anchorItem (publicKey : Bytes) : Json := .obj [(lit "public_key_base64url", .str (b64urlEncode publicKey))]

omit [Interp] in
/-- The keys of a trust anchor, each under its name. -/
def anchorsOf (keys : List Bytes) : Dict Bytes :=
  (keys.map fun publicKey => (anchorKeyId publicKey, publicKey)).foldl (fun anchors key => Dict.set anchors key.1 key.2) []

theorem anchorKey_anchorItem {publicKey : Bytes} (h : publicKey.length = 32) :
    anchorKey (anchorItem publicKey) = .ok (anchorKeyId publicKey, publicKey) := by
  have hdecode : anchorKeyDecode (b64urlEncode publicKey) = .ok publicKey := by
    have hdigits : (b64urlEncode publicKey).all (fun c => (b64Val? c).isSome) = true := by
      refine List.all_eq_true.mpr fun c hc => ?_
      obtain ⟨n, hn, rfl⟩ := List.mem_map.mp hc
      rw [b64Val?_b64Char (b64Digits_lt publicKey n hn)]
      rfl
    rw [anchorKeyDecode, if_pos hdigits, b64urlDecodePadded_b64urlEncode]
    rfl
  have hget : Dict.get? [(lit "public_key_base64url", Json.str (b64urlEncode publicKey))] (lit "public_key_base64url") =
      some (.str (b64urlEncode publicKey)) := by simp [Dict.get?_cons]
  have hnone : Dict.get? [(lit "public_key_base64url", Json.str (b64urlEncode publicKey))] (lit "key_id") = none := by
    simp [Dict.get?_cons]
  unfold anchorKey anchorItem
  dsimp only
  rw [hget, hnone]
  simp [Json.text, hdecode, ok_bind, h, isTrue]

/-- **A trust anchor is read back.** -/
theorem loadAgentManifestTrustAnchor_anchorItem {keys : List Bytes} (h : ∀ key ∈ keys, key.length = 32) :
    loadAgentManifestTrustAnchor (.document (.obj [(lit "keys", .arr (keys.map anchorItem))])) = .ok (anchorsOf keys) := by
  have hkeys : (keys.map anchorItem).mapM anchorKey = .ok (keys.map fun publicKey => (anchorKeyId publicKey, publicKey)) := by
    rw [List.mapM_map]
    exact mapM_ok fun key hkey => anchorKey_anchorItem (h key hkey)
  have hitems : anchorItems (.obj [(lit "keys", .arr (keys.map anchorItem))]) = .ok (keys.map anchorItem) := by
    simp [anchorItems, Dict.has, Dict.get?_cons]
  rw [loadAgentManifestTrustAnchor, hitems, ok_bind, hkeys, ok_bind, anchorsOf]

/-! ## The identity -/

omit [Interp] [Crypto] in
/-- The document that is verified and the one that the identity is read from. -/
def LoadedAgentManifest.From (sdk : ManifestSdk) (loaded : LoadedAgentManifest) : ManifestFile → Prop
  | .document data => data = .obj loaded.manifest ∧ loaded.envelope = none ∧
      ¬ (Dict.get? loaded.manifest (lit "version") = some (.str sdk.coseManifestVersion) ∧
        Dict.has loaded.manifest (lit "signature") = false)
  | .notJson raw => sdk.decodeCose raw = .ok (.obj loaded.manifest) ∧ loaded.envelope = some raw
  | _ => False

omit [Interp] [Crypto] in
theorem loadAgentManifestDocument_spec (sdk : ManifestSdk) (file : ManifestFile) :
    Spec (loadAgentManifestDocument sdk file) (fun loaded => loaded.From sdk file)
      fun e => e.isClass .configError ∨ file = .raises e := by
  unfold loadAgentManifestDocument
  split
  · exact .inl rfl
  · exact .inr rfl
  · split
    · exact .inl rfl
    · rename_i hdecode
      exact ⟨hdecode, rfl⟩
    · exact .inl rfl
  · split
    · exact .inl rfl
    · rename_i hversion
      refine ⟨rfl, rfl, fun h => hversion ⟨?_, h.2⟩⟩
      rw [h.1]
      rfl
  · exact .inl rfl

omit [Interp] [Crypto] in
theorem identityField_spec (manifest : Dict Json) (field : Str) (p : Str → Bool) (message : Str) :
    Spec (identityField manifest field p message) (fun s => Dict.get? manifest field = some (.str s) ∧ p s = true)
      fun e => e.isClass .configError := by
  unfold identityField
  split
  · rename_i s hs
    split
    · rename_i hp
      exact ⟨hs, hp⟩
    · exact rfl
  · exact rfl

omit [Interp] [Crypto] in
/-- An identity that was verified. -/
structure IdentityVerified (sdk : ManifestSdk) (loaded : LoadedAgentManifest) (trustedKeys : Dict Bytes) (subject : Str)
    (binding : AgentManifestBinding) : Prop where
  verified : ∃ verdict, sdk.verifyManifest loaded.artifact (trustedKeys.map fun entry => (entry.1, b64urlEncode entry.2)) =
    .ok verdict ∧ verdict.valid = true ∧ verdict.signatureVerified = true
  manifestId : Dict.get? loaded.manifest (lit "manifest_id") = some (.str binding.manifestId) ∧ binding.manifestId ≠ []
  agentId : Dict.get? loaded.manifest (lit "agent_id") = some (.str binding.agentId) ∧ isSpiffe binding.agentId = true
  issuer : Dict.get? loaded.manifest (lit "issuer") = some (.str binding.issuer) ∧ isSpiffe binding.issuer = true
  version : Dict.get? loaded.manifest (lit "version") = some (.str binding.version) ∧ binding.version ≠ []
  subject_eq : binding.agentId = subject ∧ binding.authenticatedSubject = subject

omit [Interp] [Crypto] in
theorem verifyAgentManifestBinding_spec (sdk : ManifestSdk) (loaded : LoadedAgentManifest) (trustedKeys : Dict Bytes)
    (subject : Str) :
    Spec (verifyAgentManifestBinding sdk loaded trustedKeys subject) (IdentityVerified sdk loaded trustedKeys subject)
      fun e => e.isClass .configError ∨ sdk.verifyManifest loaded.artifact
        (trustedKeys.map fun entry => (entry.1, b64urlEncode entry.2)) = .error e := by
  unfold verifyAgentManifestBinding
  cases hverdict : sdk.verifyManifest loaded.artifact (trustedKeys.map fun entry => (entry.1, b64urlEncode entry.2)) with
  | error e => exact .inr rfl
  | ok verdict =>
    have hfield : ∀ field p message, Spec (identityField loaded.manifest field p message)
        (fun s => Dict.get? loaded.manifest field = some (.str s) ∧ p s = true)
        fun e => e.isClass .configError ∨ (.ok verdict : Result ManifestVerdict) = .error e := by
      intro field p message
      exact (identityField_spec _ _ _ _).mono (fun _ h => h) fun _ h => .inl h
    rw [ok_bind]
    split
    · exact .inl rfl
    rename_i hvalid
    split
    · exact .inl rfl
    rename_i hsigned
    refine (hfield _ _ _).bind fun manifestId hid => (hfield _ _ _).bind fun agentId hagent =>
      (hfield _ _ _).bind fun issuer hissuer => (hfield _ _ _).bind fun version hversion => ?_
    split
    · exact .inl rfl
    split
    · exact .inl rfl
    rename_i hsubject
    rw [not_not] at hsubject
    exact ⟨⟨verdict, hverdict, by simpa using hvalid, by simpa using hsigned⟩, ⟨hid.1, by simpa using hid.2⟩, hagent, hissuer,
      ⟨hversion.1, by simpa using hversion.2⟩, hsubject.symm, rfl⟩

/-- The identity a node is started with, in the three steps of `build_peer_node`. -/
def bindAgentManifest (sdk : ManifestSdk) (manifest : ManifestFile) (anchor : AnchorFile) (subject : Str) :
    Result AgentManifestBinding := do
  let loaded ← loadAgentManifestDocument sdk manifest
  let trustedKeys ← loadAgentManifestTrustAnchor anchor
  verifyAgentManifestBinding sdk loaded trustedKeys subject

omit [Interp] in
/-- A key that is listed is found under its name, where no two collide. -/
theorem get?_anchorsOf {keys : List Bytes} (h : {key | key ∈ keys}.InjOn Crypto.sha256) {key : Bytes} (hkey : key ∈ keys) :
    Dict.get? (anchorsOf keys) (anchorKeyId key) = some key := by
  have hfold : ∀ (l : List Bytes) (d : Dict Bytes), (∀ key' ∈ l, anchorKeyId key' = anchorKeyId key → key' = key) →
      key ∈ l ∨ Dict.get? d (anchorKeyId key) = some key →
      Dict.get? ((l.map fun publicKey => (anchorKeyId publicKey, publicKey)).foldl
        (fun anchors key => Dict.set anchors key.1 key.2) d) (anchorKeyId key) = some key := by
    intro l
    induction l with
    | nil =>
      intro d _ hin
      exact hin.resolve_left (by simp)
    | cons first l ih =>
      intro d hsame hin
      rw [List.forall_mem_cons] at hsame
      refine ih _ hsame.2 ?_
      by_cases hid : anchorKeyId first = anchorKeyId key
      · rw [hsame.1 hid]
        exact .inr (Dict.get?_set_self _ _ _)
      · rcases hin with hin | hin
        · rcases List.mem_cons.mp hin with rfl | hin
          · exact absurd rfl hid
          · exact .inl hin
        · exact .inr ((Dict.get?_set_other _ _ (Ne.symm hid)).trans hin)
  exact hfold keys [] (fun key' hkey' hid => h hkey' hkey (hex_inj.mp hid)) (.inl hkey)

/-- Where an identity comes from: the files, and the document that the library verified. -/
def IdentityFrom (sdk : ManifestSdk) (manifest : ManifestFile) (anchor : AnchorFile) (subject : Str)
    (binding : AgentManifestBinding) : Prop :=
  isSpiffe subject = true ∧ ∃ loaded trustedKeys, loaded.From sdk manifest ∧
    loadAgentManifestTrustAnchor anchor = .ok trustedKeys ∧ (∀ entry ∈ trustedKeys, AnchorKeyValid entry) ∧
    IdentityVerified sdk loaded trustedKeys subject binding

/-- What is raised for an identity that is no `ConfigError`: what reading the files raises, and what the library does when it
is asked about what they hold. -/
inductive IdentityEscape (sdk : ManifestSdk) (manifest : ManifestFile) (anchor : AnchorFile) : Exc → Prop
  | manifest {e : Exc} (h : manifest = .raises e) : IdentityEscape sdk manifest anchor e
  | anchor {e : Exc} (h : anchor = .raises e) : IdentityEscape sdk manifest anchor e
  | library {e : Exc} {loaded : LoadedAgentManifest} {trustedKeys : Dict Bytes} (hloaded : loaded.From sdk manifest)
    (hkeys : loadAgentManifestTrustAnchor anchor = .ok trustedKeys)
    (h : sdk.verifyManifest loaded.artifact (trustedKeys.map fun entry => (entry.1, b64urlEncode entry.2)) = .error e) :
    IdentityEscape sdk manifest anchor e

theorem bindAgentManifest_spec (sdk : ManifestSdk) (manifest : ManifestFile) (anchor : AnchorFile) (subject : Str) :
    Spec (bindAgentManifest sdk manifest anchor subject) (IdentityFrom sdk manifest anchor subject)
      fun e => e.isClass .configError ∨ IdentityEscape sdk manifest anchor e := by
  cases hbind : bindAgentManifest sdk manifest anchor subject with
  | ok binding =>
    simp only [bindAgentManifest, bind_ok_iff] at hbind
    obtain ⟨loaded, hloaded, trustedKeys, hkeys, hverify⟩ := hbind
    have hidentity := (verifyAgentManifestBinding_spec sdk loaded trustedKeys subject).of_ok hverify
    have hspiffe := hidentity.agentId.2
    rw [hidentity.subject_eq.1] at hspiffe
    exact ⟨hspiffe, loaded, trustedKeys, (loadAgentManifestDocument_spec sdk manifest).of_ok hloaded, hkeys,
      (loadAgentManifestTrustAnchor_spec anchor).of_ok hkeys, hidentity⟩
  | error e =>
    simp only [bindAgentManifest, bind_error_iff] at hbind
    rcases hbind with h | ⟨loaded, hloaded, h | ⟨trustedKeys, hkeys, h⟩⟩
    · exact ((loadAgentManifestDocument_spec sdk manifest).of_error h).imp_right .manifest
    · exact ((loadAgentManifestTrustAnchor_spec anchor).of_error h).imp_right .anchor
    · exact ((verifyAgentManifestBinding_spec sdk loaded trustedKeys subject).of_error h).imp_right
        (.library ((loadAgentManifestDocument_spec sdk manifest).of_ok hloaded) hkeys)

/-- **A node is started with an identity that was verified.** The binding names the configured subject, and is read from the
document that the library verified under the keys of the trust anchor, each of 32 octets and under the name of its digest: of
an envelope the payload that the library decodes from it, and no bare document of the version that needs one. A trust anchor
that lists keys is read for exactly these. What is refused is a `ConfigError`, but for what reading a file raises, and the
library when it is asked about what the files hold. -/
theorem agentManifest_binding (sdk : ManifestSdk) (manifest : ManifestFile) (anchor : AnchorFile) (subject : Str) :
    (∀ binding, bindAgentManifest sdk manifest anchor subject = .ok binding →
      IdentityFrom sdk manifest anchor subject binding) ∧
    (∀ e, bindAgentManifest sdk manifest anchor subject = .error e →
      e.isClass .configError ∨ IdentityEscape sdk manifest anchor e) ∧
    ∀ keys : List Bytes, (∀ key ∈ keys, key.length = 32) →
      ∃ trustedKeys, loadAgentManifestTrustAnchor (.document (.obj [(lit "keys", .arr (keys.map anchorItem))])) =
        .ok trustedKeys ∧ (∀ entry ∈ trustedKeys, entry.2 ∈ keys) ∧
        ({key | key ∈ keys}.InjOn Crypto.sha256 → ∀ key ∈ keys, Dict.get? trustedKeys (anchorKeyId key) = some key) := by
  refine ⟨fun binding h => (bindAgentManifest_spec sdk manifest anchor subject).of_ok h,
    fun e h => (bindAgentManifest_spec sdk manifest anchor subject).of_error h, fun keys hkeys => ?_⟩
  · refine ⟨_, loadAgentManifestTrustAnchor_anchorItem hkeys, ?_, fun hinj key hkey => get?_anchorsOf hinj hkey⟩
    refine mem_foldl_set (by simp) fun entry hentry => ?_
    obtain ⟨key, hkey, rfl⟩ := List.mem_map.mp hentry
    exact hkey
end

/-! ## An identity -/

/-- A manifest without an envelope. -/
def peerManifest : Dict Json :=
  [(lit "manifest_id", .str (lit "m1")), (lit "agent_id", .str (lit "spiffe://a/peer")), (lit "issuer", .str (lit "spiffe://a")),
    (lit "version", .str (lit "0.1"))]

/-- A library that takes a document for valid under one key. -/
def oneKeySdk : ManifestSdk where
  coseManifestVersion := lit "0.2"
  decodeCose := fun _ => .error (lit "no envelope")
  verifyManifest := fun _ trustedKeys =>
    .ok { valid := trustedKeys.length == 1, result := lit "VALID", warnings := [], signatureVerified := true }

/-- A trust anchor that lists these keys. -/
def keysAnchor (keys : List Bytes) : AnchorFile := .document (.obj [(lit "keys", .arr (keys.map anchorItem))])

/-- The identity is verified under the key that the anchor lists, and not without one. -/
theorem agentManifest_binding_oneKey :
    let _ := Interp.ascii
    let _ := Crypto.wire
    let key : Bytes := List.replicate 32 7
    (∃ binding, bindAgentManifest oneKeySdk (.document (.obj peerManifest)) (keysAnchor [key]) (lit "spiffe://a/peer") =
        .ok binding ∧
      IdentityFrom oneKeySdk (.document (.obj peerManifest)) (keysAnchor [key]) (lit "spiffe://a/peer") binding) ∧
    (∃ e, bindAgentManifest oneKeySdk (.document (.obj peerManifest)) (keysAnchor []) (lit "spiffe://a/peer") = .error e ∧
      e.isClass .configError) ∧
    ∃ trustedKeys, loadAgentManifestTrustAnchor (keysAnchor [key]) = .ok trustedKeys ∧
      Dict.get? trustedKeys (anchorKeyId key) = some key := by
  intro _ _ key
  refine ⟨?_, ?_, ?_⟩
  · obtain ⟨binding, hbind⟩ : ∃ binding, bindAgentManifest oneKeySdk (.document (.obj peerManifest)) (keysAnchor [key])
        (lit "spiffe://a/peer") = .ok binding := exists_of_isOk (by decide +kernel)
    exact ⟨binding, hbind, (agentManifest_binding _ _ _ _).1 binding hbind⟩
  · cases hbind : bindAgentManifest oneKeySdk (.document (.obj peerManifest)) (keysAnchor []) (lit "spiffe://a/peer") with
    | error e =>
      refine ⟨e, rfl, ((agentManifest_binding _ _ _ _).2.1 e hbind).resolve_right fun h => ?_⟩
      cases h with
      | manifest h => cases h
      | anchor h => cases h
      | library _ _ h => cases h
    | ok binding =>
      have hrefused : (bindAgentManifest oneKeySdk (.document (.obj peerManifest)) (keysAnchor [])
        (lit "spiffe://a/peer")).isOk = false := by decide +kernel
      rw [hbind] at hrefused
      cases hrefused
  · obtain ⟨trustedKeys, hload, _, hfound⟩ := (agentManifest_binding oneKeySdk (.document (.obj peerManifest))
      (keysAnchor [key]) (lit "spiffe://a/peer")).2.2 [key] (by simp [key])
    exact ⟨trustedKeys, hload, hfound (by simp) key (by simp)⟩

end Ca2a
