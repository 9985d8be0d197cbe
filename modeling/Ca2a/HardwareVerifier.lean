/-
`ca2a_verify.tpm` and `ca2a_verify.sev_snp`: the verifiers that take a report
for hardware.

Nothing a report says of itself is believed. The binding is derived from the
key, the nonce and the role of the report, and has to be what the evidence
commits; the measurement is read from the evidence. So two reports on one piece
of evidence that are both accepted name the same key, nonce and role, and what is
accepted was asked of a device whose answers are its own (`Verifier.SoundFor`,
which is what the appraisal of a caller relies on).
-/
import Ca2a.ClientFacts
import Ca2a.Relay
import Ca2a.ReportData
import Ca2a.TpmQuote
import Ca2a.TsmAttest

namespace Ca2a

open Py

/-! ## TPM -/

/-- `TPM_GENERATED_VALUE` -/
def tpmGeneratedValue : Nat := 0xFF544347

/-- `TPM_ST_ATTEST_QUOTE` -/
def tpmStAttestQuote : Nat := 0x8018

/-- `_ALG_RSASSA` -/
def algRsassa : Nat := 0x0014

/-- `_ALG_ECDSA` -/
def algEcdsa : Nat := 0x0018

/-- `_ALG_SHA256` -/
def algSha256 : Nat := 0x000B

/-- `ParsedSignature` of `agent_manifest`. -/
structure ParsedSignature where
  sigAlg : Nat
  hashAlg : Nat
  signature : Bytes

/-- `bytes | ParsedSignature` -/
inductive QuoteSignature
  | bare (signature : Bytes)
  | parsed (signature : ParsedSignature)

/-- What a library raised: its class and its text. -/
structure LibError where
  name : Str
  text : Str

/-- What `agent_manifest` does with TPM quotes. -/
structure TpmSdk where
  /-- `parse_tpmt_signature`, or the text of the `TpmVerificationError` it raises. -/
  parseTpmtSignature : Bytes → Except Str ParsedSignature
  /-- `verify_tpm_quote` -/
  verify : (attest : Bytes) → QuoteSignature → (akChainPem trustedRootsPem : Bytes) →
    (expectedQualifyingData expectedPcrDigest : Option Bytes) → Except LibError Bool

/-- `ak.public_key()`, as far as it is looked at. -/
inductive AkKey
  | rsa
  | ec
  | other

/-- What `cryptography` does with certificates of attestation keys. -/
structure AkCerts where
  Cert : Type
  publicKey : Cert → Result AkKey
  /-- `public_bytes(Encoding.PEM)` -/
  pem : Cert → Bytes

section
variable (sdk : TpmSdk)

/-- `parse_tpmt_signature` -/
def parseTpmtSignature (blob : Bytes) : Result ParsedSignature :=
  match sdk.parseTpmtSignature blob with
  | .ok parsed => .ok parsed
  | .error exc => raise .attestationFailed exc

/-- `_delegate` -/
def delegate (attest : Bytes) (signature : QuoteSignature) (akChainPem trustedRootsPem : Bytes)
    (expectedQualifyingData expectedPcrDigest : Option Bytes) : Result Unit :=
  match sdk.verify attest signature akChainPem trustedRootsPem expectedQualifyingData expectedPcrDigest with
  | .error exc =>
    raise .attestationFailed (lit "TPM quote verification failed") (some (exc.name ++ lit ": " ++ exc.text))
  | .ok true => .ok ()
  | .ok false =>
    raise .attestationFailed (lit "TPM quote verification failed")
      (some (lit "the AK signature or an expected binding did not match"))

/-- `_tag_legacy_bare_signature` -/
def tagLegacyBareSignature (certs : AkCerts) (signature : QuoteSignature) (ak : certs.Cert) : Result QuoteSignature :=
  match signature with
  | .parsed signature => .ok (.parsed signature)
  | .bare signature => do
    let key ← certs.publicKey ak
    match key with
    | .rsa => .ok (.parsed ⟨algRsassa, algSha256, signature⟩)
    | .ec => .ok (.parsed ⟨algEcdsa, algSha256, signature⟩)
    | .other => .ok (.bare signature)

/-- `verify_tpm_quote` -/
def verifyTpmQuote (certs : AkCerts) (attest : Bytes) (signature : QuoteSignature) (akChain trustedRoots : List certs.Cert)
    (expectedPcrDigest expectedQualifyingData : Option Bytes) : Result TpmQuote :=
  match akChain with
  | [] => raise .attestationFailed (lit "no AK certificate chain was supplied")
  | ak :: _ =>
    if trustedRoots = [] then
      raise .attestationFailed (lit "no trusted root was supplied")
        (some (lit "a chain validated against no anchor would accept any chain"))
    else do
      let quote ← (TpmQuote.parse attest).result
      let signature ← tagLegacyBareSignature certs signature ak
      delegate sdk attest signature (akChain.flatMap certs.pem) (trustedRoots.flatMap certs.pem)
        expectedQualifyingData expectedPcrDigest
      .ok quote

section
variable [Interp] [Crypto]

/-- `verify_tpm_report`, from where the report is known to carry evidence. -/
def appraiseTpmEvidence (report : AttestationReport) (evidence quoteSignature akChainPem trustedRootsPem : Bytes) :
    Result Str := do
  let expectedQualifyingData ← tpmQualifyingData report.publicKey report.nonce report.role
  let parsed ← parseTpmtSignature sdk quoteSignature
  let quote ← (TpmQuote.parse evidence).result
  delegate sdk evidence (.parsed parsed) akChainPem trustedRootsPem (some expectedQualifyingData) none
  let measurement := lit "sha256:" ++ hex quote.pcrDigest
  if report.measurement ≠ measurement then
    raise .attestationFailed (lit "the reported measurement is not the one the TPM signed")
      (some (lit "report=" ++ report.measurement ++ lit " quote=" ++ measurement))
  else .ok measurement

/-- `verify_tpm_report` -/
def verifyTpmReport (trustedRootsPem : Bytes) (report : AttestationReport) (expectedNonce : Str) : Result Str :=
  if report.nonce ≠ expectedNonce then
    raise .attestationFailed (lit "the report nonce does not match the expected nonce")
      (some (lit "stale or replayed attestation report"))
  else
    match report.rawEvidence, report.quoteSignature with
    | some evidence, some quoteSignature =>
      match report.attestationKeyChainPem with
      | none | some [] =>
        raise .attestationFailed (lit "the report carries no attestation key certificate chain")
          (some (lit "the quote may be signed by a transient key, which proves a signature but not that the key " ++
            lit "lives in a TPM"))
      | some (x :: pem) =>
        if trustedRootsPem = [] then
          raise .attestationFailed (lit "no trusted root was supplied")
            (some (lit "a chain validated against no anchor would accept any chain"))
        else appraiseTpmEvidence sdk report evidence quoteSignature (x :: pem) trustedRootsPem
    | _, _ =>
      raise .attestationFailed (lit "the report carries no TPM quote to verify")
        (some (lit "a report claiming the 'tpm' platform must ship raw_evidence and quote_signature; without them " ++
          lit "there is nothing to appraise"))

/-- `tpm_verifier` -/
def tpmVerifier (trustedRootsPem : Bytes) : Verifier := verifyTpmReport sdk trustedRootsPem

end

end

/-! ## SEV-SNP -/

/-- `SIG_ALGO_ECDSA_P384_SHA384` -/
def sigAlgoEcdsaP384Sha384 : Nat := 1

/-- `PLATFORM_INFO_LEN` -/
def platformInfoLen : Nat := 8

/-- What `agent_manifest` and `cryptography` do with SEV-SNP reports, beside what they do with certificates. -/
structure SnpTools extends SnpLib, TdxPki where
  /-- `SNP_OFFSETS["platform_info"]` -/
  platformInfoOffset : Nat
  /-- `key.verify(encode_dss_signature(r, s), message, ec.ECDSA(SHA384()))` -/
  verify384 : Key → (r s : Nat) → (message : Bytes) → Result Unit
  PlatformInfo : Type
  parsePlatformInfo : Nat → Result PlatformInfo
  /-- `appraise_platform_info`, or the text of what it raises. -/
  appraisePlatformInfo : PlatformInfo → (require forbid : Option (Finset Str)) → (rejectUnrecognizedBits : Bool) →
    Except Str Unit

section
variable (tools : SnpTools)

/-- `SevSnpReport.signed_body` -/
def SevSnpReport.signedBody (report : SevSnpReport) : Bytes := slice report.raw 0 tools.sigOffset

/-- `SevSnpReport.platform_info` -/
def SevSnpReport.platformInfo (report : SevSnpReport) : Nat :=
  ofLittle (slice report.raw tools.platformInfoOffset (tools.platformInfoOffset + platformInfoLen))

/-- `SevSnpReport.signature_rs` -/
def SevSnpReport.signatureRs (report : SevSnpReport) : Nat × Nat :=
  (ofLittle (slice report.raw tools.sigOffset (tools.sigOffset + sigComponentLen)),
    ofLittle (slice report.raw (tools.sigOffset + sigComponentLen) (tools.sigOffset + 2 * sigComponentLen)))

/-- `f"{n:016x}"` -/
def hex016 (n : Nat) : Str :=
  let digits := (Nat.toDigits 16 n).map cp
  List.replicate (16 - digits.length) (cp '0') ++ digits

/-- `if s:` for a set that may be missing. -/
def isSupplied (s : Option (Finset Str)) : Bool := s.any fun names => names ≠ ∅

/-- The check of the platform in `verify_sev_snp_report`. -/
def checkPlatform (report : SevSnpReport) (requirePlatform forbidPlatform : Option (Finset Str))
    (rejectUnrecognizedPlatformBits : Bool) : Result Unit :=
  if isSupplied requirePlatform || isSupplied forbidPlatform || rejectUnrecognizedPlatformBits then do
    let info ← tools.parsePlatformInfo (report.platformInfo tools)
    match tools.appraisePlatformInfo info requirePlatform forbidPlatform rejectUnrecognizedPlatformBits with
    | .ok () => .ok ()
    | .error exc =>
      raise .attestationFailed (lit "platform state does not satisfy the configured policy")
        (some (lit "platform_info=0x" ++ hex016 (report.platformInfo tools) ++ lit ": " ++ exc))
  else .ok ()

/-- `verify_sev_snp_report` -/
def verifySevSnpReport (reportBytes : Bytes) (vcekChain trustedRoots : List tools.Cert)
    (expectedMeasurement expectedReportData : Option Bytes) (requirePlatform forbidPlatform : Option (Finset Str))
    (rejectUnrecognizedPlatformBits : Bool) : Result SevSnpReport := do
  let report ← SevSnpReport.ofBytes tools.toSnpLib reportBytes
  if report.signatureAlgo ≠ sigAlgoEcdsaP384Sha384 then
    raise .attestationFailed (lit "unsupported report signature algorithm")
      (some (lit "algo=" ++ decimal report.signatureAlgo ++ lit ", expected " ++ decimal sigAlgoEcdsaP384Sha384))
  else do
    verifyCertChain tools.toTdxPki vcekChain trustedRoots
    let vcek ← leafOf tools.toTdxPki vcekChain
    let vcekKey ← tools.publicKey vcek
    match vcekKey with
    | none => raise .attestationFailed (lit "VCEK does not carry an elliptic-curve public key")
    | some vcekKey => do
      let (r, s) := report.signatureRs tools
      catchBuiltin (· = .invalidSignature) (tools.verify384 vcekKey r s (report.signedBody tools)) fun _ =>
        raise .attestationFailed (lit "SEV-SNP report signature failed to verify")
      if expectedMeasurement.any fun measurement => report.measurement ≠ measurement then
        raise .attestationFailed (lit "measurement does not match the expected value")
          (some (lit "got " ++ hex report.measurement))
      else if expectedReportData.any fun reportData => report.reportData ≠ reportData then
        raise .attestationFailed (lit "report data does not match the expected binding")
      else do
        checkPlatform tools report requirePlatform forbidPlatform rejectUnrecognizedPlatformBits
        .ok report

/-- The arguments of `sev_snp_verifier`. -/
structure SnpRequirements where
  trustedRoots : List tools.Cert
  vcekChain : List tools.Cert
  expectedMeasurement : Bytes
  minGuestSvn : Int
  requirePlatform : Finset Str
  forbidPlatform : Finset Str
  rejectUnrecognizedPlatformBits : Bool := true

section
variable [Interp] [Crypto]

/-- The verifier that `sev_snp_verifier` returns. -/
def SnpRequirements.verify (req : SnpRequirements tools) : Verifier := fun report nonce =>
  match report.rawEvidence with
  | none => raise .attestationFailed (lit "SEV-SNP channel verification requires signed SNP evidence")
  | some evidence =>
    if report.platform ≠ lit "sev-snp" then
      raise .attestationFailed (lit "SEV-SNP channel verification requires signed SNP evidence")
    else if report.nonce ≠ nonce then
      raise .attestationFailed (lit "report nonce does not match the expected nonce")
    else do
      let expectedReportData ← snpReportData report.publicKey nonce report.role
      let verified ← verifySevSnpReport tools evidence req.vcekChain req.trustedRoots (some req.expectedMeasurement)
        (some expectedReportData) (some req.requirePlatform) (some req.forbidPlatform) req.rejectUnrecognizedPlatformBits
      if verified.policy.testBit 19 then
        raise .attestationFailed (lit "debug-enabled SNP guests are forbidden")
      else if verified.vmpl ≠ 0 then
        raise .attestationFailed (lit "SNP channel verification requires VMPL0")
      else if (verified.guestSvn : Int) < req.minGuestSvn then
        raise .attestationFailed (lit "SNP guest SVN is below the configured minimum")
      else .ok (lit "sha384:" ++ hex verified.measurement)

/-- `sev_snp_verifier` -/
def sevSnpVerifier (req : SnpRequirements tools) : Result Verifier :=
  if req.expectedMeasurement.length ≠ 48 then
    .error (.builtin .valueError (lit "expected_measurement must be a 48-byte SNP measurement"))
  else if req.minGuestSvn < 0 ∨ 0xFFFFFFFF < req.minGuestSvn then
    .error (.builtin .valueError (lit "min_guest_svn must be an unsigned 32-bit integer"))
  else .ok (req.verify tools)

end

end

/-! ## What is accepted -/

/-- `verify_tpm_quote` of the library returns `True` for a quote that is signed under the chain, with what was expected. -/
structure TpmSdk.Documented (sdk : TpmSdk) (Signed : (akChainPem trustedRootsPem attest : Bytes) → Prop) : Prop where
  signed : ∀ {attest signature chain roots qualifyingData pcrDigest},
    sdk.verify attest signature chain roots qualifyingData pcrDigest = .ok true → Signed chain roots attest
  quoted : ∀ {attest signature chain roots qualifyingData pcrDigest quote},
    sdk.verify attest signature chain roots qualifyingData pcrDigest = .ok true → (TpmQuote.parse attest).result = .ok quote →
      quote.magic = tpmGeneratedValue ∧ quote.attestType = tpmStAttestQuote ∧
        (∀ data ∈ qualifyingData, quote.qualifyingData = data) ∧ ∀ digest ∈ pcrDigest, quote.pcrDigest = digest

/-- The report is signed by the leaf of the chain, which reaches a root. -/
structure SnpVouched (tools : SnpTools) (vcekChain trustedRoots : List tools.Cert) (r : SevSnpReport) : Prop where
  algorithm : r.signatureAlgo = sigAlgoEcdsaP384Sha384
  chain : tools.verifyChain vcekChain trustedRoots = .ok ()
  signed : ∃ vcek rest key, vcekChain = vcek :: rest ∧ tools.publicKey vcek = .ok (some key) ∧
    tools.verify384 key (r.signatureRs tools).1 (r.signatureRs tools).2 (r.signedBody tools) = .ok ()

/-- The platform is one the requirements allow. -/
def SnpRequirements.Allows {tools : SnpTools} (req : SnpRequirements tools) (r : SevSnpReport) : Prop :=
  req.requirePlatform = ∅ ∧ req.forbidPlatform = ∅ ∧ req.rejectUnrecognizedPlatformBits = false ∨
    ∃ info, tools.parsePlatformInfo (r.platformInfo tools) = .ok info ∧
      tools.appraisePlatformInfo info (some req.requirePlatform) (some req.forbidPlatform)
        req.rejectUnrecognizedPlatformBits = .ok ()

section
variable {sdk : TpmSdk} {tools : SnpTools}

theorem parseTpmtSignature_ok_iff {blob : Bytes} {parsed : ParsedSignature} :
    parseTpmtSignature sdk blob = .ok parsed ↔ sdk.parseTpmtSignature blob = .ok parsed := by
  unfold parseTpmtSignature
  split <;> simp_all

theorem delegate_ok_iff {attest akChainPem trustedRootsPem : Bytes} {signature : QuoteSignature}
    {qualifyingData pcrDigest : Option Bytes} :
    delegate sdk attest signature akChainPem trustedRootsPem qualifyingData pcrDigest = .ok () ↔
      sdk.verify attest signature akChainPem trustedRootsPem qualifyingData pcrDigest = .ok true := by
  unfold delegate
  split <;> simp_all

theorem checkPlatform_ok_iff {req : SnpRequirements tools} {r : SevSnpReport} :
    checkPlatform tools r (some req.requirePlatform) (some req.forbidPlatform) req.rejectUnrecognizedPlatformBits = .ok () ↔
      req.Allows r := by
  unfold checkPlatform SnpRequirements.Allows
  by_cases hnothing : req.requirePlatform = ∅ ∧ req.forbidPlatform = ∅ ∧ req.rejectUnrecognizedPlatformBits = false
  · rw [if_neg (by simp [isSupplied, hnothing])]
    exact iff_of_true rfl (.inl hnothing)
  · rw [if_pos (by simp only [isSupplied]; by_contra hno; exact hnothing (by simpa [and_assoc] using hno)), or_iff_right hnothing,
      bind_ok_iff]
    refine exists_congr fun info => and_congr_right fun _ => ?_
    split <;> simp_all

theorem verifyCertChain_ok_iff {pki : TdxPki} {chain trustedRoots : List pki.Cert} :
    verifyCertChain pki chain trustedRoots = .ok () ↔ pki.verifyChain chain trustedRoots = .ok () := by
  unfold verifyCertChain
  split <;> simp_all

theorem leafOf_ok_iff {pki : TdxPki} {chain : List pki.Cert} {leaf : pki.Cert} :
    leafOf pki chain = .ok leaf ↔ ∃ rest, chain = leaf :: rest := by
  unfold leafOf
  split <;> simp [eq_comm]

theorem verifySevSnpReport_ok_iff {req : SnpRequirements tools} {evidence measurement reportData : Bytes} {r : SevSnpReport} :
    verifySevSnpReport tools evidence req.vcekChain req.trustedRoots (some measurement) (some reportData)
        (some req.requirePlatform) (some req.forbidPlatform) req.rejectUnrecognizedPlatformBits = .ok r ↔
      SevSnpReport.ofBytes tools.toSnpLib evidence = .ok r ∧ SnpVouched tools req.vcekChain req.trustedRoots r ∧
        r.measurement = measurement ∧ r.reportData = reportData ∧ req.Allows r := by
  rw [verifySevSnpReport, bind_ok_iff]
  refine ⟨fun h => ?_, fun h => ?_⟩
  · obtain ⟨r', hparse, h⟩ := h
    split at h
    · cases h
    rename_i halgorithm
    rw [bind_unit_ok_iff, bind_ok_iff] at h
    obtain ⟨hchain, vcek, hleaf, h⟩ := h
    obtain ⟨rest, hvcek⟩ := leafOf_ok_iff.mp hleaf
    obtain ⟨key, hkey, h⟩ := bind_ok_iff.mp h
    cases key with
    | none => cases h
    | some key =>
      dsimp only at h
      rw [bind_unit_ok_iff, catchBuiltin_ok_iff (by simp)] at h
      obtain ⟨hsigned, h⟩ := h
      split at h
      · cases h
      rename_i hmeasurement
      split at h
      · cases h
      rename_i hreportData
      rw [bind_unit_ok_iff, checkPlatform_ok_iff] at h
      obtain ⟨hplatform, h⟩ := h
      cases h
      exact ⟨hparse, ⟨not_not.mp halgorithm, verifyCertChain_ok_iff.mp hchain, vcek, rest, key, hvcek, hkey, hsigned⟩,
        by simpa using hmeasurement, by simpa using hreportData, hplatform⟩
  · obtain ⟨hparse, hvouched, rfl, rfl, hplatform⟩ := h
    obtain ⟨vcek, rest, key, hchain, hkey, hsigned⟩ := hvouched.signed
    refine ⟨r, hparse, ?_⟩
    rw [if_neg (not_not.mpr hvouched.algorithm), verifyCertChain_ok_iff.mpr hvouched.chain, ok_bind, hchain, leafOf, ok_bind,
      hkey, ok_bind]
    dsimp only
    rw [(catchBuiltin_ok_iff (by simp)).mpr hsigned, ok_bind, if_neg (by simp), if_neg (by simp), checkPlatform_ok_iff.mpr hplatform, ok_bind]

variable [Interp] [Crypto]

/-- What `tpm_verifier` has checked of a report. -/
structure TpmAccepted (sdk : TpmSdk) (trustedRootsPem : Bytes) (report : AttestationReport) (measurement : Str)
    (evidence : Bytes) (quote : TpmQuote) : Prop where
  carried : report.rawEvidence = some evidence
  parsed : (TpmQuote.parse evidence).result = .ok quote
  verified : ∃ quoteSignature parsed akChainPem binding, report.quoteSignature = some quoteSignature ∧
    report.attestationKeyChainPem = some akChainPem ∧ akChainPem ≠ [] ∧
    tpmQualifyingData report.publicKey report.nonce report.role = .ok binding ∧
    sdk.parseTpmtSignature quoteSignature = .ok parsed ∧
    sdk.verify evidence (.parsed parsed) akChainPem trustedRootsPem (some binding) none = .ok true
  measured : measurement = lit "sha256:" ++ hex quote.pcrDigest ∧ report.measurement = measurement

theorem verifyTpmReport_ok_iff {trustedRootsPem : Bytes} {report : AttestationReport} {nonce measurement : Str} :
    verifyTpmReport sdk trustedRootsPem report nonce = .ok measurement ↔
      report.nonce = nonce ∧ trustedRootsPem ≠ [] ∧
        ∃ evidence quote, TpmAccepted sdk trustedRootsPem report measurement evidence quote := by
  unfold verifyTpmReport
  refine ⟨fun h => ?_, fun h => ?_⟩
  · split at h
    · cases h
    rename_i hnonce
    split at h
    · rename_i evidence quoteSignature hevidence hsignature
      split at h
      · cases h
      · cases h
      rename_i x pem hchain
      split at h
      · cases h
      rename_i hroots
      simp only [appraiseTpmEvidence, bind_ok_iff] at h
      obtain ⟨binding, hbinding, parsed, hparsed, quote, hquote, _, hverify, h⟩ := h
      split at h
      · cases h
      rename_i hmeasured
      cases h
      exact ⟨not_not.mp hnonce, hroots, evidence, quote, hevidence, hquote,
        ⟨quoteSignature, parsed, x :: pem, binding, hsignature, hchain, List.cons_ne_nil _ _, hbinding,
          parseTpmtSignature_ok_iff.mp hparsed, delegate_ok_iff.mp hverify⟩, rfl, not_not.mp hmeasured⟩
    · cases h
  · obtain ⟨hnonce, hroots, evidence, quote, haccepted⟩ := h
    obtain ⟨quoteSignature, parsed, akChainPem, binding, hsignature, hchain, hne, hbinding, hparsed, hverify⟩ :=
      haccepted.verified
    obtain ⟨x, pem, rfl⟩ := List.exists_cons_of_ne_nil hne
    obtain ⟨rfl, hmeasured⟩ := haccepted.measured
    rw [if_neg (not_not.mpr hnonce), haccepted.carried, hsignature, hchain]
    dsimp only
    rw [if_neg hroots, appraiseTpmEvidence, hbinding, ok_bind, parseTpmtSignature_ok_iff.mpr hparsed, ok_bind,
      haccepted.parsed, ok_bind, delegate_ok_iff.mpr hverify, ok_bind, if_neg (not_not.mpr hmeasured)]

omit [Interp] [Crypto] in
/-- What `verify_tpm_quote` accepts under a signature that was parsed. -/
theorem verifyTpmQuote_parsed_iff {certs : AkCerts} {attest : Bytes} {parsed : ParsedSignature}
    {akChain trustedRoots : List certs.Cert} {pcrDigest qualifyingData : Option Bytes} {quote : TpmQuote} :
    verifyTpmQuote sdk certs attest (.parsed parsed) akChain trustedRoots pcrDigest qualifyingData = .ok quote ↔
      akChain ≠ [] ∧ trustedRoots ≠ [] ∧ (TpmQuote.parse attest).result = .ok quote ∧
        sdk.verify attest (.parsed parsed) (akChain.flatMap certs.pem) (trustedRoots.flatMap certs.pem) qualifyingData
          pcrDigest = .ok true := by
  unfold verifyTpmQuote
  cases akChain with
  | nil => simp
  | cons ak rest =>
    dsimp only
    split
    · rename_i hroots
      simp [hroots]
    · rename_i hroots
      rw [bind_ok_iff, and_iff_right (List.cons_ne_nil _ _), and_iff_right hroots, ← delegate_ok_iff]
      refine ⟨fun h => ?_, fun h => ?_⟩
      · obtain ⟨quote', hquote, h⟩ := h
        rw [tagLegacyBareSignature, ok_bind, bind_unit_ok_iff] at h
        obtain ⟨hverify, h⟩ := h
        cases h
        exact ⟨hquote, hverify⟩
      · refine ⟨quote, h.1, ?_⟩
        rw [tagLegacyBareSignature, ok_bind, h.2, ok_bind]

/-- **The two entry points agree**: a report is accepted when its quote is, by `verify_tpm_quote`, for the binding that is
derived from it. -/
theorem verifyTpmReport_iff_quote {certs : AkCerts} (hpem : ∀ cert, certs.pem cert ≠ [])
    {akChain trustedRoots : List certs.Cert} {report : AttestationReport} {nonce measurement : Str}
    (hchain : report.attestationKeyChainPem = some (akChain.flatMap certs.pem)) :
    verifyTpmReport sdk (trustedRoots.flatMap certs.pem) report nonce = .ok measurement ↔
      report.nonce = nonce ∧ ∃ evidence quoteSignature binding parsed quote, report.rawEvidence = some evidence ∧
        report.quoteSignature = some quoteSignature ∧
        tpmQualifyingData report.publicKey report.nonce report.role = .ok binding ∧
        parseTpmtSignature sdk quoteSignature = .ok parsed ∧
        verifyTpmQuote sdk certs evidence (.parsed parsed) akChain trustedRoots none (some binding) = .ok quote ∧
        measurement = lit "sha256:" ++ hex quote.pcrDigest ∧ report.measurement = measurement := by
  have hempty : ∀ chain : List certs.Cert, chain.flatMap certs.pem ≠ [] ↔ chain ≠ [] := by
    intro chain
    cases chain with
    | nil => simp
    | cons cert rest => simp [hpem cert]
  rw [verifyTpmReport_ok_iff, hempty]
  refine and_congr_right fun _ => ⟨fun h => ?_, fun h => ?_⟩
  · obtain ⟨hroots, evidence, quote, haccepted⟩ := h
    obtain ⟨quoteSignature, parsed, pem, binding, hsignature, hpems, hne, hbinding, hparsed, hverify⟩ := haccepted.verified
    obtain rfl : akChain.flatMap certs.pem = pem := Option.some.inj (hchain.symm.trans hpems)
    exact ⟨evidence, quoteSignature, binding, parsed, quote, haccepted.carried, hsignature, hbinding,
      parseTpmtSignature_ok_iff.mpr hparsed,
      verifyTpmQuote_parsed_iff.mpr ⟨(hempty _).mp hne, hroots, haccepted.parsed, hverify⟩, haccepted.measured⟩
  · obtain ⟨evidence, quoteSignature, binding, parsed, quote, hcarried, hsignature, hbinding, hparsed, hquote, hmeasured⟩ := h
    obtain ⟨hne, hroots, hparse, hverify⟩ := verifyTpmQuote_parsed_iff.mp hquote
    exact ⟨hroots, evidence, quote, hcarried, hparse,
      ⟨quoteSignature, parsed, _, binding, hsignature, hchain, (hempty _).mpr hne, hbinding,
        parseTpmtSignature_ok_iff.mp hparsed, hverify⟩, hmeasured⟩

/-- What the verifier of `sev_snp_verifier` has checked of a report. -/
structure SnpAccepted (tools : SnpTools) (req : SnpRequirements tools) (report : AttestationReport) (measurement : Str)
    (evidence : Bytes) (r : SevSnpReport) : Prop where
  platform : report.platform = lit "sev-snp"
  carried : report.rawEvidence = some evidence
  parsed : SevSnpReport.ofBytes tools.toSnpLib evidence = .ok r
  vouched : SnpVouched tools req.vcekChain req.trustedRoots r
  committed : snpReportData report.publicKey report.nonce report.role = .ok r.reportData
  measured : measurement = lit "sha384:" ++ hex r.measurement ∧ r.measurement = req.expectedMeasurement
  allowed : req.Allows r
  guest : r.policy.testBit 19 = false ∧ r.vmpl = 0 ∧ req.minGuestSvn ≤ r.guestSvn

theorem verifySnp_ok_iff {req : SnpRequirements tools} {report : AttestationReport} {nonce measurement : Str} :
    req.verify tools report nonce = .ok measurement ↔
      report.nonce = nonce ∧ ∃ evidence r, SnpAccepted tools req report measurement evidence r := by
  unfold SnpRequirements.verify
  refine ⟨fun h => ?_, fun h => ?_⟩
  · split at h
    · cases h
    rename_i evidence hevidence
    split at h
    · cases h
    rename_i hplatform
    split at h
    · cases h
    rename_i hnonce
    obtain rfl := not_not.mp hnonce
    rw [bind_ok_iff] at h
    obtain ⟨binding, hbinding, h⟩ := h
    obtain ⟨r, hverified, h⟩ := bind_ok_iff.mp h
    obtain ⟨hparsed, hvouched, hmeasured, hcommitted, hallowed⟩ := verifySevSnpReport_ok_iff.mp hverified
    split at h
    · cases h
    rename_i hpolicy
    split at h
    · cases h
    rename_i hvmpl
    split at h
    · cases h
    rename_i hsvn
    cases h
    exact ⟨rfl, evidence, r, not_not.mp hplatform, hevidence, hparsed, hvouched, hcommitted ▸ hbinding, ⟨rfl, hmeasured⟩,
      hallowed, by simpa using hpolicy, not_not.mp hvmpl, not_lt.mp hsvn⟩
  · obtain ⟨rfl, evidence, r, haccepted⟩ := h
    obtain ⟨hpolicy, hvmpl, hsvn⟩ := haccepted.guest
    obtain ⟨rfl, hmeasured⟩ := haccepted.measured
    have hverified : verifySevSnpReport tools evidence req.vcekChain req.trustedRoots (some req.expectedMeasurement)
        (some r.reportData) (some req.requirePlatform) (some req.forbidPlatform) req.rejectUnrecognizedPlatformBits = .ok r :=
      verifySevSnpReport_ok_iff.mpr ⟨haccepted.parsed, haccepted.vouched, hmeasured, rfl, haccepted.allowed⟩
    rw [haccepted.carried]
    dsimp only
    rw [if_neg (not_not.mpr haccepted.platform), if_neg (not_not.mpr rfl), haccepted.committed, ok_bind, hverified, ok_bind,
      if_neg (by simp [hpolicy]), if_neg (not_not.mpr hvmpl), if_neg (not_lt.mpr hsvn)]

/-- The arguments that `sev_snp_verifier` takes. -/
theorem sevSnpVerifier_ok_iff {req : SnpRequirements tools} {verify : Verifier} :
    sevSnpVerifier tools req = .ok verify ↔
      (req.expectedMeasurement.length = 48 ∧ 0 ≤ req.minGuestSvn ∧ req.minGuestSvn ≤ 0xFFFFFFFF) ∧
        verify = req.verify tools := by
  unfold sevSnpVerifier
  split
  · rename_i hlength
    simp [hlength]
  · rename_i hlength
    split
    · rename_i hsvn
      refine iff_of_false (by simp) fun h => ?_
      omega
    · rename_i hsvn
      rw [Except.ok.injEq, eq_comm, and_iff_right]
      omega

end

/-! ## Verifiers for hardware -/

/-- A verifier of the repository, with what it was built from. -/
inductive HardwareVerifier (sdk : TpmSdk) (tools : SnpTools)
  | tpm (trustedRootsPem : Bytes)
  | sevSnp (req : SnpRequirements tools) (measurement : req.expectedMeasurement.length = 48)
      (svn : 0 ≤ req.minGuestSvn ∧ req.minGuestSvn ≤ 0xFFFFFFFF)

namespace HardwareVerifier
variable {sdk : TpmSdk} {tools : SnpTools}

/-- The platform whose reports it takes. -/
def platform : HardwareVerifier sdk tools → Platform
  | tpm _ => .tpm
  | sevSnp _ _ _ => .snp

/-- The evidence is signed under the roots it trusts. -/
def Trusts (Signed : (akChainPem trustedRootsPem attest : Bytes) → Prop) (evidence : Bytes) :
    HardwareVerifier sdk tools → Prop
  | tpm trustedRootsPem => ∃ akChainPem, Signed akChainPem trustedRootsPem evidence
  | sevSnp req _ _ => ∃ r, SevSnpReport.ofBytes tools.toSnpLib evidence = .ok r ∧
      SnpVouched tools req.vcekChain req.trustedRoots r

/-- What the evidence commits, and how it is measured. -/
def Reads (evidence field : Bytes) (measurement : Str) : HardwareVerifier sdk tools → Prop
  | tpm _ => ∃ quote, (TpmQuote.parse evidence).result = .ok quote ∧ quote.qualifyingData = field ∧
      measurement = lit "sha256:" ++ hex quote.pcrDigest
  | sevSnp _ _ _ => ∃ r, SevSnpReport.ofBytes tools.toSnpLib evidence = .ok r ∧ r.reportData = field ∧
      measurement = lit "sha384:" ++ hex r.measurement

variable [Interp] [Crypto]

/-- The verifier itself. -/
def verify : HardwareVerifier sdk tools → Verifier
  | tpm trustedRootsPem => tpmVerifier sdk trustedRootsPem
  | sevSnp req _ _ => req.verify tools

/-- A measurement and a binding that stand on evidence. -/
structure Backed (Signed : (akChainPem trustedRootsPem attest : Bytes) → Prop) (hv : HardwareVerifier sdk tools)
    (publicKey nonce role measurement : Str) (evidence field : Bytes) : Prop where
  trusted : hv.Trusts Signed evidence
  reads : hv.Reads evidence field measurement
  binding : hv.platform.reportData publicKey nonce role = .ok field

variable {Signed : (akChainPem trustedRootsPem attest : Bytes) → Prop} {hv : HardwareVerifier sdk tools}

/-- What a verifier returns stands on the evidence of the report. -/
theorem backed_of_verify (hsdk : sdk.Documented Signed) {report : AttestationReport} {nonce measurement : Str}
    (h : hv.verify report nonce = .ok measurement) :
    ∃ evidence field, report.rawEvidence = some evidence ∧
      hv.Backed Signed report.publicKey nonce report.role measurement evidence field := by
  cases hv with
  | tpm roots =>
    obtain ⟨rfl, _, evidence, quote, haccepted⟩ := verifyTpmReport_ok_iff.mp h
    obtain ⟨_, _, chain, binding, _, _, _, hbinding, _, hverify⟩ := haccepted.verified
    obtain ⟨_, _, hcommitted, _⟩ := hsdk.quoted hverify haccepted.parsed
    exact ⟨evidence, binding, haccepted.carried, ⟨chain, hsdk.signed hverify⟩,
      ⟨quote, haccepted.parsed, hcommitted binding rfl, haccepted.measured.1⟩, hbinding⟩
  | sevSnp req _ _ =>
    obtain ⟨rfl, evidence, r, haccepted⟩ := verifySnp_ok_iff.mp h
    exact ⟨evidence, r.reportData, haccepted.carried, ⟨r, haccepted.parsed, haccepted.vouched⟩,
      ⟨r, haccepted.parsed, rfl, haccepted.measured.1⟩, haccepted.committed⟩

omit [Interp] [Crypto] in
/-- Evidence is read in one way. -/
theorem Reads.unique {hv hv' : HardwareVerifier sdk tools} (hplatform : hv.platform = hv'.platform)
    {evidence field field' : Bytes} {measurement measurement' : Str} (h : hv.Reads evidence field measurement)
    (h' : hv'.Reads evidence field' measurement') : field = field' ∧ measurement = measurement' := by
  cases hv with
  | tpm roots =>
    cases hv' with
    | tpm roots' =>
      obtain ⟨quote, hquote, rfl, rfl⟩ := h
      obtain ⟨quote', hquote', rfl, rfl⟩ := h'
      cases hquote.symm.trans hquote'
      exact ⟨rfl, rfl⟩
    | sevSnp => cases hplatform
  | sevSnp req _ _ =>
    cases hv' with
    | tpm => cases hplatform
    | sevSnp req' _ _ =>
      obtain ⟨r, hr, rfl, rfl⟩ := h
      obtain ⟨r', hr', rfl, rfl⟩ := h'
      cases hr.symm.trans hr'
      exact ⟨rfl, rfl⟩

/-- An offer that appraises as hardware stands on the evidence it carries. -/
theorem backed_of_verifyOffer (hsdk : sdk.Documented Signed) {offer : ChannelOffer} {nonce role : Str}
    {requireHardware : Bool} {peer : VerifiedPeer}
    (h : verifyOffer offer nonce (some hv.verify) requireHardware role = .ok peer) (hhard : peer.assurance = .hardware) :
    ∃ evidence field, offer.report.rawEvidence = some evidence ∧
      hv.Backed Signed peer.publicKey nonce role peer.measurement evidence field := by
  obtain ⟨hrole, hkey, _, hpeer, h⟩ := verifyOffer_ok_iff.mp (verifyOffer_requireHardware.mp h).1
  split at h
  · rw [h.1] at hhard
    cases hhard
  · obtain ⟨_, verify, hverify, hmeasured⟩ := h
    cases hverify
    have hbacked := backed_of_verify hsdk hmeasured
    rwa [hkey, ← hpeer, hrole] at hbacked

/-- What a verifier accepts is one of the bindings that the devices it trusts have signed. -/
theorem soundFor (hsdk : sdk.Documented Signed) (hdigest : ∀ octets, (Crypto.sha256 octets).length = 32)
    {signed : List Bytes} (hlength : ∀ digest ∈ signed, digest.length = 32)
    (hsigned : ∀ evidence field measurement, hv.Trusts Signed evidence → hv.Reads evidence field measurement →
      ∃ digest ∈ signed, field = hv.platform.pad digest) (report : AttestationReport) :
    hv.verify.SoundFor signed report := by
  intro nonce measurement h
  obtain ⟨evidence, field, _, hbacked⟩ := backed_of_verify hsdk h
  obtain ⟨digest, hmem, hfield⟩ := hsigned evidence field measurement hbacked.trusted hbacked.reads
  have hbinding := hbacked.binding
  rw [reportData_eq fun octets _ => hdigest octets] at hbinding
  obtain ⟨octets, hoctets, hpad⟩ := map_ok_iff.mp hbinding
  have hsame : Crypto.sha256 octets = digest := pad_inj (hdigest octets) (hlength digest hmem) (hpad.trans hfield)
  refine ⟨hv.platform.platformPrefix, digest, hmem, ?_⟩
  rw [hashedOctets, bind_ok_iff] at hoctets
  obtain ⟨domain, hdomain, hoctets⟩ := hoctets
  rw [roleBinding, hdomain, ok_bind, deriveBinding_eq, hoctets, ← hsame]
  rfl

end HardwareVerifier

/-- **Hardware is what the evidence says.** With either verifier, an offer that appraises as hardware stands on evidence that
a trusted device signed: it commits the key that is sealed to, the nonce and the role, and the measurement is read from it.
So two such offers on one piece of evidence are for the same key, nonce and role, and a verifier is sound for whatever the
devices it trusts have signed. -/
theorem hardware_offer_backed [Interp] [Crypto] {sdk : TpmSdk} {tools : SnpTools}
    {Signed : (akChainPem trustedRootsPem attest : Bytes) → Prop} (hsdk : sdk.Documented Signed)
    (hv hv' : HardwareVerifier sdk tools) :
    (∀ offer nonce requireHardware role peer, verifyOffer offer nonce (some hv.verify) requireHardware role = .ok peer →
      peer.assurance = .hardware → ∃ evidence field, offer.report.rawEvidence = some evidence ∧
        hv.Backed Signed peer.publicKey nonce role peer.measurement evidence field) ∧
    (hv.platform = hv'.platform → ∀ hashed : Set Bytes, hashed.InjOn Crypto.sha256 →
      (∀ octets ∈ hashed, (Crypto.sha256 octets).length = 32) →
      ∀ offer offer' nonce nonce' required required' role role' peer peer',
        (∀ octets, hashedOctets hv.platform role peer.publicKey nonce = .ok octets → octets ∈ hashed) →
        (∀ octets, hashedOctets hv'.platform role' peer'.publicKey nonce' = .ok octets → octets ∈ hashed) →
        verifyOffer offer nonce (some hv.verify) required role = .ok peer → peer.assurance = .hardware →
        verifyOffer offer' nonce' (some hv'.verify) required' role' = .ok peer' → peer'.assurance = .hardware →
        offer.report.rawEvidence = offer'.report.rawEvidence → peer = peer' ∧ nonce = nonce' ∧ role = role') ∧
    ((∀ octets, (Crypto.sha256 octets).length = 32) → ∀ signed : List Bytes, (∀ digest ∈ signed, digest.length = 32) →
      (∀ evidence field measurement, hv.Trusts Signed evidence → hv.Reads evidence field measurement →
        ∃ digest ∈ signed, field = hv.platform.pad digest) → ∀ report, hv.verify.SoundFor signed report) := by
  refine ⟨fun offer nonce required role peer => HardwareVerifier.backed_of_verifyOffer hsdk, ?_,
    fun hdigest signed hlength hsigned => HardwareVerifier.soundFor hsdk hdigest hlength hsigned⟩
  intro hplatform hashed hinj hlength offer offer' nonce nonce' required required' role role' peer peer' hmem hmem' h hhard h'
    hhard' hsame
  obtain ⟨evidence, field, hcarried, hbacked⟩ := HardwareVerifier.backed_of_verifyOffer hsdk h hhard
  obtain ⟨evidence', field', hcarried', hbacked'⟩ := HardwareVerifier.backed_of_verifyOffer hsdk h' hhard'
  obtain rfl : evidence = evidence' := Option.some.inj (hcarried.symm.trans (hsame.trans hcarried'))
  obtain ⟨rfl, hmeasured⟩ := hbacked.reads.unique hplatform hbacked'.reads
  obtain ⟨_, hrole, hkey, hnonce⟩ := reportData_inj hinj hlength hmem hmem' hbacked.binding hbacked'.binding
  obtain ⟨key, assurance, measurement⟩ := peer
  obtain ⟨key', assurance', measurement'⟩ := peer'
  refine ⟨?_, hnonce, hrole⟩
  rw [VerifiedPeer.mk.injEq]
  exact ⟨hkey, hhard.trans hhard'.symm, hmeasured⟩

/-! ## Libraries to run the verifiers with -/

/-- Quotes are accepted whose chain is the roots. -/
def toySdk : TpmSdk where
  parseTpmtSignature := fun blob => .ok ⟨algRsassa, algSha256, blob⟩
  verify := fun attest _ chain roots qualifyingData pcrDigest =>
    match (TpmQuote.parse attest).result with
    | .ok quote => .ok (chain = roots ∧ quote.magic = tpmGeneratedValue ∧ quote.attestType = tpmStAttestQuote ∧
        qualifyingData.all (quote.qualifyingData = ·) ∧ pcrDigest.all (quote.pcrDigest = ·))
    | .error _ => .error ⟨lit "TpmVerificationError", []⟩

theorem toySdk_documented : toySdk.Documented fun chain roots _ => chain = roots where
  signed := by
    intro attest signature chain roots qualifyingData pcrDigest h
    simp only [toySdk] at h
    split at h
    · exact (of_decide_eq_true (Except.ok.inj h)).1
    · cases h
  quoted := by
    intro attest signature chain roots qualifyingData pcrDigest quote h hparse
    simp only [toySdk, hparse] at h
    obtain ⟨_, hmagic, htype, hdata, hdigest⟩ := of_decide_eq_true (Except.ok.inj h)
    refine ⟨hmagic, htype, fun data hmem => ?_, fun digest hmem => ?_⟩
    · obtain rfl := hmem
      simpa using hdata
    · obtain rfl := hmem
      simpa using hdigest

/-- Reports whose first 64 octets are the data and what is signed, and one report that was signed. -/
def guestTools (signed : Bytes) : SnpTools where
  toTdxPki := custodyPki
  parse := fun blob => .ok ⟨2, 0, 0, 0, 1, List.replicate 48 0, slice blob 0 64, blob⟩
  sigOffset := 64
  platformInfoOffset := 0
  verify384 := fun _ _ _ message => if message = signed then .ok () else .error (.builtin .invalidSignature [])
  PlatformInfo := Unit
  parsePlatformInfo := fun _ => .ok ()
  appraisePlatformInfo := fun _ _ _ _ => .ok ()

/-- The verifier for these guests. -/
def guestRequirements (signed : Bytes) : SnpRequirements (guestTools signed) where
  trustedRoots := [([1] : Bytes)]
  vcekChain := [([1] : Bytes)]
  expectedMeasurement := List.replicate 48 0
  minGuestSvn := 0
  requirePlatform := ∅
  forbidPlatform := ∅

theorem prefixDigest_length (octets : Bytes) : (@Crypto.sha256 Crypto.prefixDigest octets).length = 32 := by
  change ((octets ++ List.replicate 32 0).take 32).length = 32
  simp

/-- A guest's report over its field is taken for hardware, whatever it says of its measurement. -/
theorem verifyOffer_guest [Interp] [Crypto] {field : Bytes} (hlength : field.length = 64) (report : AttestationReport)
    (hplatform : report.platform = lit "sev-snp") (hevidence : report.rawEvidence = some field)
    (hcommitted : snpReportData report.publicKey report.nonce report.role = .ok field) (required : Bool) :
    verifyOffer ⟨report.publicKey, report⟩ report.nonce (some ((guestRequirements field).verify (guestTools field))) required
      report.role = .ok ⟨report.publicKey, .hardware, lit "sha384:" ++ hex (List.replicate 48 0)⟩ := by
  have hhard : report.platform ≠ softwareOnly := by
    rw [hplatform]
    decide
  have hslice : slice field 0 64 = field := by
    rw [← hlength]
    exact List.take_length
  have haccepted : SnpAccepted (guestTools field) (guestRequirements field) report (lit "sha384:" ++ hex (List.replicate 48 0))
      field ⟨2, 0, 0, 0, 1, List.replicate 48 0, slice field 0 64, field⟩ :=
    { platform := hplatform
      carried := hevidence
      parsed := rfl
      vouched := ⟨rfl, rfl, _, _, _, rfl, rfl, if_pos hslice⟩
      committed := hslice.symm ▸ hcommitted
      measured := ⟨rfl, rfl⟩
      allowed := .inr ⟨(), rfl, rfl⟩
      guest := ⟨Nat.zero_testBit 19, rfl, le_refl _⟩ }
  refine verifyOffer_requireHardware.mpr ⟨verifyOffer_ok_iff.mpr ⟨rfl, rfl, rfl, rfl, ?_⟩, fun _ => hhard⟩
  rw [if_neg hhard]
  exact ⟨rfl, _, rfl, verifySnp_ok_iff.mpr ⟨rfl, _, _, haccepted⟩⟩

/-- What is vouched for is the report over the field. -/
theorem reportData_of_guest {field evidence : Bytes} {r : SevSnpReport}
    (hparse : SevSnpReport.ofBytes (guestTools field).toSnpLib evidence = .ok r)
    (hvouched : SnpVouched (guestTools field) (guestRequirements field).vcekChain (guestRequirements field).trustedRoots r) :
    r.reportData = field := by
  cases hparse
  obtain ⟨_, _, _, _, _, hsigned⟩ := hvouched.signed
  simp only [guestTools] at hsigned
  split at hsigned
  · assumption
  · cases hsigned

/-- An offer of a guest whose report is `field`. -/
def snpOffer (field : Bytes) (measurement : Str) : ChannelOffer where
  channelPublicKey := lit "k"
  report :=
    { platform := lit "sev-snp"
      measurement
      publicKey := lit "k"
      nonce := lit "n"
      rawEvidence := some field
      role := roleCallee }

/-- What a report says of its measurement does not matter: two offers on one piece of evidence. -/
theorem hardware_offer_backed_snpOffer :
    let _ := Interp.ascii
    let _ := Crypto.prefixDigest
    ∃ digest field, field = Platform.snp.pad digest ∧
      let hv : HardwareVerifier toySdk (guestTools field) :=
        .sevSnp (guestRequirements field) List.length_replicate ⟨le_refl _, (by decide : (0 : Int) ≤ 0xFFFFFFFF)⟩
      ∃ peer peer',
        verifyOffer (snpOffer field (lit "golden")) (lit "n") (some hv.verify) true roleCallee = .ok peer ∧
        verifyOffer (snpOffer field (lit "other")) (lit "n") (some hv.verify) false roleCallee = .ok peer' ∧ peer = peer' ∧
        (∃ evidence committed, hv.Backed (fun chain roots _ => chain = roots) peer.publicKey (lit "n") roleCallee
          peer.measurement evidence committed) ∧
        hv.verify.SoundFor [digest] (snpOffer field []).report := by
  intro _ _
  have hdefined : ∃ octets, hashedOctets .snp roleCallee (lit "k") (lit "n") = .ok octets := ⟨_, rfl⟩
  obtain ⟨octets, hoctets⟩ := hdefined
  have hlength := prefixDigest_length octets
  have hbinding : Platform.snp.reportData (lit "k") (lit "n") roleCallee = .ok (Platform.snp.pad (Crypto.sha256 octets)) := by
    rw [reportData_eq fun octets _ => prefixDigest_length octets, hoctets]
    rfl
  refine ⟨Crypto.sha256 octets, _, rfl, ?_⟩
  intro hv
  have hfield : (Platform.snp.pad (Crypto.sha256 octets)).length = 64 := by
    simp [Platform.pad, reportDataLen, hlength]
  have haccepts : ∀ measurement required, verifyOffer (snpOffer (Platform.snp.pad (Crypto.sha256 octets)) measurement)
      (lit "n") (some hv.verify) required roleCallee =
        .ok ⟨lit "k", .hardware, lit "sha384:" ++ hex (List.replicate 48 0)⟩ := by
    intro measurement required
    exact verifyOffer_guest hfield (snpOffer _ measurement).report rfl rfl hbinding required
  obtain ⟨hbacked, hagree, hsound⟩ := hardware_offer_backed toySdk_documented hv hv
  obtain ⟨evidence, committed, _, hback⟩ := hbacked _ _ _ _ _ (haccepts (lit "golden") true) rfl
  have hmem : ∀ octets', hashedOctets hv.platform roleCallee (lit "k") (lit "n") = .ok octets' →
      octets' ∈ ({octets} : Set Bytes) := fun octets' h => Except.ok.inj (h.symm.trans hoctets)
  refine ⟨_, _, haccepts _ _, haccepts _ _, ?_, ⟨evidence, committed, hback⟩, ?_⟩
  · exact (hagree rfl {octets} (Set.injOn_singleton _ _) (fun o _ => prefixDigest_length o) _ _ _ _ _ _ _ _ _ _ hmem hmem
      (haccepts (lit "golden") true) rfl (haccepts (lit "other") false) rfl rfl).1
  · refine hsound prefixDigest_length [Crypto.sha256 octets] (by simpa using hlength) ?_ _
    intro evidence field measurement htrusts hreads
    obtain ⟨r, hr, hvouched⟩ := htrusts
    obtain ⟨r', hr', hcommitted, _⟩ := hreads
    cases hr.symm.trans hr'
    exact ⟨Crypto.sha256 octets, List.mem_singleton_self _, hcommitted.symm.trans (reportData_of_guest hr hvouched)⟩

end Ca2a
