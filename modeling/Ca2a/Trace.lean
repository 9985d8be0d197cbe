/-
`ca2a_runtime.trace_binding` and `ca2a_verify.dag`: signed TRACE records, one
for each hop, each with the hash of the one before it.

Signing, the record schema and the canonical form are those of the
`agentrust_trace` and `rfc8785` packages, so they are parameters
(`TraceLib`). What is verified are documents: a record is any JSON value
until it is checked, and `.get` on what is no dictionary raises.
-/
import Ca2a.Chain
import Ca2a.Py.Base64
import Ca2a.Wire

namespace Ca2a

open Py

/-- `agentrust_trace` and `rfc8785`. -/
class TraceLib [Crypto] where
  signRecord : (record : Dict Json) → (key : Crypto.EdKey) → Result (Dict Json)
  validateJson : (record : Dict Json) → Result Unit
  /-- `verify_record(record, jwk, max_age_seconds=…)`, at the time `now`. -/
  verifyRecord : (record : Dict Json) → (jwk : Json) → (maxAgeSeconds : Option Int) → (now : Int) → Result Unit
  /-- `rfc8785.dumps` -/
  dumps : Json → Result Bytes

/-! ## Emission -/

/-- `EAT_PROFILE` -/
def eatProfile : Str := lit "tag:agentrust-io.com,2026:trace-v0.2"

/-- `SOFTWARE_PLATFORM` -/
def softwarePlatform : Str := lit "software-only"

/-- `digest` -/
def digest [Crypto] (data : Bytes) : Str := lit "sha256:" ++ Crypto.sha256Hex data

/-- `HopContext` -/
structure HopContext where
  modelProvider : Str
  modelId : Str
  runtimeMeasurement : Str
  policyBundleHash : Str
  buildDigest : Str
  appraisalVerifier : Str
  transparency : Str
  runtimePlatform : Str := softwarePlatform
  enforcementMode : Str := lit "enforce"
  dataClass : Str := lit "confidential"
  slsaLevel : Int := 0
  appraisalStatus : Str := lit "none"
  runtimeNonce : Option Str := none
  modelVersion : Option Str := none
  policyVersion : Option Str := none

/-- `HopContext.software`, with the defaults of its optional arguments. -/
def HopContext.software [Interp] [Crypto] (modelProvider modelId imageLabel policyBundleHash : Str) : Result HopContext := do
  let image ← utf8 imageLabel
  let build ← utf8 (lit "software-build:" ++ imageLabel)
  .ok
    { modelProvider
      modelId
      runtimeMeasurement := digest image
      policyBundleHash
      buildDigest := digest build
      appraisalVerifier := lit "https://appraisal.invalid/software-mode"
      transparency := lit "https://transparency.invalid/software-mode" }

/-- The record of a hop, the delegation block apart. -/
def baseRecord (subject : Str) (iat : Int) (context : HopContext) : Dict Json :=
  [(lit "eat_profile", .str eatProfile), (lit "iat", .int iat), (lit "subject", .str subject),
    (lit "model", .obj ([(lit "provider", .str context.modelProvider), (lit "model_id", .str context.modelId)] ++
      optField (lit "version") (context.modelVersion.map .str))),
    (lit "runtime", .obj ([(lit "platform", .str context.runtimePlatform),
      (lit "measurement", .str context.runtimeMeasurement)] ++ optField (lit "nonce") (context.runtimeNonce.map .str))),
    (lit "policy", .obj ([(lit "bundle_hash", .str context.policyBundleHash),
      (lit "enforcement_mode", .str context.enforcementMode)] ++ optField (lit "version") (context.policyVersion.map .str))),
    (lit "data_class", .str context.dataClass),
    (lit "build_provenance", .obj [(lit "slsa_level", .int context.slsaLevel), (lit "digest", .str context.buildDigest)]),
    (lit "appraisal", .obj [(lit "status", .str context.appraisalStatus), (lit "verifier", .str context.appraisalVerifier)]),
    (lit "transparency", .str context.transparency)]

/-- The delegation block of a record. -/
def delegationBlock (parentRecordHash credentialId : Str) : Json :=
  .obj [(lit "parent_record_hash", .str parentRecordHash), (lit "credential_id", .str credentialId)]

/-- `build_trace_record` -/
def buildTraceRecord (subject : Str) (iat : Int) (context : HopContext) (credentialId parentRecordHash : Option Str) :
    Result (Dict Json) :=
  match parentRecordHash, credentialId with
  | none, none => .ok (baseRecord subject iat context)
  | some parent, some credential =>
    .ok (baseRecord subject iat context ++ [(lit "delegation", delegationBlock parent credential)])
  | _, _ =>
    .error (.builtin .valueError
      (lit "the delegation block needs both parent_record_hash and credential_id; a root hop supplies neither"))

/-- `LINK_DIGEST` -/
def linkDigest : Str := lit "sha256"

/-- `HopSpec` -/
structure HopSpec [Crypto] where
  subject : Str
  signingKey : Crypto.EdKey
  context : HopContext
  iat : Int
  credentialId : Str := []

section
variable [Crypto] [TraceLib]

/-- `trace_record_hash` -/
def traceRecordHash (signedRecord : Dict Json) : Result Str := do
  let canonical ← TraceLib.dumps (.obj signedRecord)
  .ok (linkDigest ++ lit ":" ++ Crypto.sha256Hex canonical)

/-- The hops from index `i` on, the first of them after the record with the hash `parentHash`. -/
def emitHops : (i : Nat) → (parentHash : Option Str) → List HopSpec → Result (List (Dict Json))
  | _, _, [] => .ok []
  | i, parentHash, hop :: hops => do
    let credentialId := if i = 0 then none else some hop.credentialId
    let record ← buildTraceRecord hop.subject hop.iat hop.context credentialId parentHash
    let signed ← TraceLib.signRecord record hop.signingKey
    let hash ← traceRecordHash signed
    let records ← emitHops (i + 1) (some hash) hops
    .ok (signed :: records)

/-- `emit_dag` -/
def emitDag (hops : List HopSpec) : Result (List (Dict Json)) := emitHops 0 none hops

end

/-! ## Verification -/

/-- `TraceDagResult` -/
structure TraceDagResult where
  hops : Nat
  rootSubject : Json
  leafSubject : Json
  subjects : List Json

/-- `_DIGEST_RE.match`: its `$` also stands before a last newline. -/
def isTraceDigest (s : Str) : Bool :=
  let t := if s.getLast? = some (cp '\n') then s.dropLast else s
  ((lit "sha256:").isPrefixOf t && isLowerHex 64 (t.drop 7)) || ((lit "sha384:").isPrefixOf t && isLowerHex 96 (t.drop 7))

/-- A key the caller trusts, as it is given. -/
inductive TrustedKey
  | ed25519 (raw : Bytes)
  | jwk (jwk : Dict Json)
  | other (typeName : Str)

section
variable [Interp]

/-- `_validate_delegation_block`. A record without the block has `None` for it. -/
def validateDelegationBlock (block : Json) (index : Nat) : Result Unit :=
  match block with
  | .null => .ok ()
  | .obj d =>
    if (Dict.keys d).toFinset ≠ {lit "parent_record_hash", lit "credential_id"} then
      raise .traceRecordInvalid (record ++ lit " delegation block has unexpected fields")
        (some (lit "got " ++ reprList (sortedStrs (Dict.keys d).toFinset) ++
          lit ", expected parent_record_hash + credential_id"))
    else if ((Dict.get? d (lit "parent_record_hash")).bind Json.str?).any isTraceDigest = false then
      raise .traceRecordInvalid (record ++ lit " delegation.parent_record_hash is not a digest")
    else if ((Dict.get? d (lit "credential_id")).bind Json.str?).any (· ≠ []) = false then
      raise .traceRecordInvalid (record ++ lit " delegation.credential_id is missing")
    else .ok ()
  | _ => raise .traceRecordInvalid (record ++ lit " delegation block is not an object")
where
  record : Str := lit "record " ++ decimal index

/-- `_b64url_decode` of the verifier, which pads and decodes leniently. -/
def b64urlDecodePadded (value : Str) : Result Bytes :=
  urlsafeB64decode (value ++ List.replicate ((4 - value.length % 4) % 4) (cp '='))

/-- `_jwk_raw` -/
def jwkRaw (jwk : Json) : Result Bytes := do
  let kty ← getDefault jwk (lit "kty") .null
  let crv ← getDefault jwk (lit "crv") .null
  if kty.str? ≠ some (lit "OKP") ∨ crv.str? ≠ some (lit "Ed25519") then
    raise .traceRecordInvalid (lit "unsupported cnf.jwk key type") (some (lit "expected an OKP/Ed25519 key"))
  else do
    let x ← getDefault jwk (lit "x") .null
    match x with
    | .str x =>
      catchBuiltin ExcKind.isValueError (b64urlDecodePadded x) fun t =>
        raise .traceRecordInvalid (lit "cnf.jwk 'x' is not valid base64url") (some t)
    | _ => raise .traceRecordInvalid (lit "cnf.jwk is missing its 'x' parameter")

/-- `_trusted_raw_keys`, at one key. -/
def trustedRawKey : TrustedKey → Result Bytes
  | .ed25519 raw => .ok raw
  | .jwk jwk => jwkRaw (.obj jwk)
  | .other typeName => .error (.builtin .typeError (lit "unsupported trusted key type: " ++ typeName))

/-- `record.get("cnf", {}).get("jwk", {})` -/
def recordJwk (record : Json) : Result Json := do
  let cnf ← getDefault record (lit "cnf") (.obj [])
  getDefault cnf (lit "jwk") (.obj [])

/-- The parent link of a record after the root is the hash of the record before it. -/
def checkParentHash (i : Nat) (prevHash : Option Str) (delegation : Json) : Result Unit := do
  let link ← subscript delegation (lit "parent_record_hash")
  match link with
  | .str link =>
    if (linkDigest ++ lit ":").isPrefixOf link = false then
      raise .traceDigestUnsupported
        (lit "record " ++ decimal i ++ lit " parent link names a digest this verifier does not implement")
        (some (lit "the link is " ++ link.takeWhile (· ≠ cp ':') ++ lit ", this verifier computes " ++ linkDigest ++
          lit "; the chain is unverifiable here, not invalid"))
    else if some link ≠ prevHash then
      raise .provenanceLinkBroken
        (lit "record " ++ decimal i ++ lit " parent link does not match the previous record's hash")
        (some (lit "a tampered or reparented record was detected"))
    else .ok ()
  | link =>
    .error (.builtin .attributeError (lit "'" ++ link.typeName ++ lit "' object has no attribute 'startswith'"))

/-- What is checked of the delegation block of record `i`, after the record with the hash `prevHash`. -/
def checkParentLink (i : Nat) (prevHash : Option Str) (delegation : Json) : Result Unit :=
  match i, delegation with
  | 0, .null => .ok ()
  | 0, _ => raise .provenanceLinkBroken (lit "root record must not carry a delegation block")
  | i + 1, .null => raise .provenanceLinkBroken (lit "record " ++ decimal (i + 1) ++ lit " is missing its delegation block")
  | i + 1, delegation => checkParentHash (i + 1) prevHash delegation

end

section
variable [Interp] [Crypto] [TraceLib]

/-- `verify_record`, with what its exceptions become. -/
def verifySigned (i : Nat) (record : Dict Json) (jwk : Json) (maxAgeSeconds : Option Int) (now : Int) : Result Unit :=
  catchBuiltin ExcKind.isValueError
    (catchBuiltin (fun k => k = .invalidSignature) (TraceLib.verifyRecord record jwk maxAgeSeconds now) fun _ =>
      raise .traceRecordInvalid (lit "record " ++ decimal i ++ lit " signature does not verify"))
    fun t => raise .traceRecordInvalid (lit "record " ++ decimal i ++ lit " could not be verified") (some t)

/-- One turn of the loop of `verify_trace_dag`: the hash of record `i` and its subject. -/
def checkRecord (trusted : Finset Bytes) (maxAgeSeconds : Option Int) (now : Int) (i : Nat) (prevHash : Option Str)
    (seenHashes : Finset Str) (record : Json) : Result (Str × Json) :=
  match record with
  | .obj d => do
    catchAny (TraceLib.validateJson (Dict.erase d (lit "delegation"))) fun t =>
      raise .traceRecordInvalid (lit "record " ++ decimal i ++ lit " is not a valid TRACE record") (some t)
    let delegation := (Dict.get? d (lit "delegation")).getD .null
    validateDelegationBlock delegation i
    let jwk ← recordJwk (.obj d)
    let raw ← jwkRaw jwk
    if raw ∉ trusted then
      raise .traceRecordInvalid (lit "record " ++ decimal i ++ lit " is signed by an untrusted key")
    else do
      verifySigned i d jwk maxAgeSeconds now
      let hash ← traceRecordHash d
      if hash ∈ seenHashes then
        raise .provenanceLinkBroken (lit "record " ++ decimal i ++ lit " repeats an earlier record")
      else do
        checkParentLink i prevHash delegation
        let subject ← subscript (.obj d) (lit "subject")
        .ok (hash, subject)
  | _ =>
    raise .traceRecordInvalid (lit "record " ++ decimal i ++ lit " is not a JSON object")
      (some (lit "got " ++ record.typeName))

/-- The loop of `verify_trace_dag` from record `i` on; `clock i` is the time when record `i` is verified. -/
def verifyRecords (trusted : Finset Bytes) (maxAgeSeconds : Option Int) (clock : Nat → Int) :
    (i : Nat) → (prevHash : Option Str) → (seenHashes : Finset Str) → List Json → Result (List Json)
  | _, _, _, [] => .ok []
  | i, prevHash, seenHashes, record :: records => do
    let (hash, subject) ← checkRecord trusted maxAgeSeconds (clock i) i prevHash seenHashes record
    let subjects ← verifyRecords trusted maxAgeSeconds clock (i + 1) (some hash) (insert hash seenHashes) records
    .ok (subject :: subjects)

/-- `verify_trace_dag` -/
def verifyTraceDag (records : List Json) (trustedKeys : List TrustedKey) (maxAgeSeconds : Option Int)
    (clock : Nat → Int) : Result TraceDagResult :=
  if records.isEmpty then raise .provenanceLinkBroken (lit "empty TRACE DAG")
  else do
    let trusted ← trustedKeys.mapM trustedRawKey
    let subjects ← verifyRecords trusted.toFinset maxAgeSeconds clock 0 none ∅ records
    .ok
      { hops := records.length
        -- there is a record, so there is a subject
        rootSubject := subjects.headD .null
        leafSubject := subjects.getLastD .null
        subjects }

end

/-! ## Against the chain -/

/-- `value or {}` -/
def orEmpty : Json → Json
  | .null | .bool false | .int 0 | .float .negZero | .str [] | .arr [] => .obj []
  | .float (.finite q) => if q = 0 then .obj [] else .float (.finite q)
  | value => value

section
variable [Interp]

/-- The record of a hop after the root names its credential. -/
def crossCheckCredential (i : Nat) (record : Json) (cred : DelegationCredential) : Result Unit :=
  if i > 0 then do
    let delegation ← getDefault record (lit "delegation") .null
    let credentialId ← getDefault (orEmpty delegation) (lit "credential_id") .null
    if credentialId.str? ≠ some cred.credentialId then
      raise .provenanceLinkBroken (lit "record " ++ decimal i ++ lit " credential_id does not match the chain")
    else .ok ()
  else .ok ()

/-- One turn of the loop of `cross_check_trace_dag`. -/
def crossCheckRecord (i : Nat) (record : Json) (cred : DelegationCredential) : Result Unit := do
  crossCheckCredential i record cred
  let jwk ← recordJwk record
  let raw ← jwkRaw jwk
  if hex raw ≠ cred.subject then
    raise .provenanceLinkBroken
      (lit "record " ++ decimal i ++ lit " was signed by a key that is not chain[" ++ decimal i ++ lit "].subject")
  else .ok ()

/-- The loop of `cross_check_trace_dag` from record `i` on. -/
def crossCheckRecords : (i : Nat) → List Json → List DelegationCredential → Result Unit
  | i, record :: records, cred :: chain => do
    crossCheckRecord i record cred
    crossCheckRecords (i + 1) records chain
  | _, _, _ => .ok ()

/-- `cross_check_trace_dag` -/
def crossCheckTraceDag (records : List Json) (chain : List DelegationCredential) : Result Unit :=
  if records.length ≠ chain.length then
    raise .provenanceLinkBroken
      (lit "DAG length " ++ decimal records.length ++ lit " does not match chain length " ++ decimal chain.length)
  else crossCheckRecords 0 records chain

/-- The records of a document: a list of dictionaries, or a dictionary that has one under `records`. -/
def lineageRecords (document : Json) : Result (List Json) :=
  let records :=
    match document with
    | .obj d => (Dict.get? d (lit "records")).getD .null
    | document => document
  match records with
  | .arr records => if records.all isObject then .ok records else malformed
  | _ => malformed
where
  isObject : Json → Bool
    | .obj _ => true
    | _ => false
  malformed : Result (List Json) :=
    raise .provenanceLinkBroken (lit "signed DAG must be a list of record objects")

end

section
variable [Interp] [Crypto] [TraceLib]

/-- `Ed25519PublicKey.from_public_bytes(bytes.fromhex(c.subject))` -/
def subjectKey (c : DelegationCredential) : Result TrustedKey := do
  let raw ← fromHex c.subject
  match Crypto.edKeyError raw with
  | some t => .error (.builtin .valueError t)
  | none => .ok (.ed25519 raw)

/-- What `verify-lineage` requires of a chain and a document. -/
def verifyLineage (chain : List DelegationCredential) (document : Json) (maxDepth : Int) (trustedRootIssuers : Finset Str)
    (atTime : Option Int) (now : Int) (revocations : Option RevocationSnapshot) (staleness : Option Int)
    (maxAgeSeconds : Option Int) (clock : Nat → Int) : Result (TraceDagResult × RevocationStatus) := do
  let revocation ← verifyChain chain maxDepth trustedRootIssuers atTime now revocations staleness
  let records ← lineageRecords document
  let keys ← chain.mapM subjectKey
  let result ← verifyTraceDag records keys maxAgeSeconds clock
  crossCheckTraceDag records chain
  .ok (result, revocation)

end

end Ca2a
