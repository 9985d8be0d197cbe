/-
`ca2a_verify.tdx`: the appraisal of a TDX quote.

Trust goes from a root to the PCK, from the PCK to the QE report, from the QE
report to the attestation key and from that key to the quote. Each link is over
a part of the blob that the parser cut out, so what is returned is what the
links are about (`Custody`). Two quotes with the same vouchers can then only
differ in what nobody signed. What fails is refused with `AttestationFailed`, but
for one step: the key of the PCK is read outside of every handler.
-/
import Ca2a.Crypto
import Ca2a.TdxQuote

namespace Ca2a

open Py

/-- What `cryptography` and `agent_manifest` do with certificates and ECDSA keys. -/
structure TdxPki where
  /-- `x509.Certificate` -/
  Cert : Type
  /-- `ec.EllipticCurvePublicKey` -/
  Key : Type
  /-- `x509.load_pem_x509_certificates` -/
  loadPem : Bytes → Result (List Cert)
  /-- `agent_manifest.verify_cert_chain`, or the text of the `CertChainError` it raises. -/
  verifyChain : (chain trustedRoots : List Cert) → Except Str Unit
  /-- `cert.public_key()`, nothing for a key that is not an elliptic curve's. -/
  publicKey : Cert → Result (Option Key)
  /-- `ec.EllipticCurvePublicKey.from_encoded_point`, on P-256. -/
  fromEncodedPoint : Bytes → Result Key
  /-- `key.verify(encode_dss_signature(r, s), message, ec.ECDSA(SHA256()))` -/
  verify : Key → (r s : Nat) → (message : Bytes) → Result Unit

namespace TdxPki

/-- The library raises what it says it raises, nothing of this program's, and a chain that it accepts reaches a root. -/
structure Documented (pki : TdxPki) (Reaches : (chain trustedRoots : List pki.Cert) → Prop) : Prop where
  loadPem : PemLoader pki.loadPem
  verifyChain : ∀ chain roots, pki.verifyChain chain roots = .ok () → Reaches chain roots
  publicKey : ∀ cert, Spec (pki.publicKey cert) (fun _ => True) fun e => ∃ k t, e = .builtin k t
  fromEncodedPoint : ∀ point, Spec (pki.fromEncodedPoint point) (fun _ => True)
    fun e => ∃ k t, e = .builtin k t ∧ k.isValueError = true
  verify : ∀ key r s message, Spec (pki.verify key r s message) (fun _ => True)
    fun e => ∃ k t, e = .builtin k t ∧ signatureErrors k = true

/-- Under one key an ideal signature verifies for one message. -/
def IdealSignature (pki : TdxPki) : Prop :=
  ∀ key r s message message', pki.verify key r s message = .ok () → pki.verify key r s message' = .ok () →
    message = message'

/-- The chain has a leaf and the key of that leaf can be read. -/
def LeafKeyLoads (pki : TdxPki) (chain : List pki.Cert) : Prop :=
  ∃ pck rest key, chain = pck :: rest ∧ pki.publicKey pck = .ok key

end TdxPki

/-! ## The verifier -/

/-- `TEE_TYPE_TDX` -/
def teeTypeTdx : Nat := 0x81

/-- `QE_REPORT_DATA_OFFSET` -/
def qeReportDataOffset : Nat := 320

section
variable (pki : TdxPki)

/-- `verify_cert_chain` of `ca2a_verify.sev_snp`. -/
def verifyCertChain (chain trustedRoots : List pki.Cert) : Result Unit :=
  match pki.verifyChain chain trustedRoots with
  | .ok () => .ok ()
  | .error exc => raise .attestationFailed (lit "certificate chain verification failed") (some exc)

/-- `_p256_key` -/
def p256Key (rawXy : Bytes) : Result pki.Key := pki.fromEncodedPoint (0x04 :: rawXy)

/-- `_verify_ecdsa` -/
def verifyEcdsa (publicKey : pki.Key) (sigRs message : Bytes) : Result Unit :=
  pki.verify publicKey (ofBig (slice sigRs 0 32)) (ofBig (slice sigRs 32 64)) message

/-- `chain[0]` -/
def leafOf (chain : List pki.Cert) : Result pki.Cert :=
  match chain with
  | [] => .error (.builtin .indexError (lit "list index out of range"))
  | pck :: _ => .ok pck

variable [Crypto]

/-- The checks of `verify_tdx_quote` on a quote that was parsed. -/
def appraise (quote : TdxQuote pki.Cert) (trustedRoots : List pki.Cert) (expectedMrtd expectedReportData : Option Bytes) :
    Result (TdxQuote pki.Cert) :=
  if quote.teeType ≠ teeTypeTdx then
    raise .attestationFailed (lit "quote is not a TDX quote")
      (some (lit "tee_type=0x" ++ (Nat.toDigits 16 quote.teeType).map cp))
  else do
    verifyCertChain pki quote.pckChain trustedRoots
    let pck ← leafOf pki quote.pckChain
    let pckKey ← pki.publicKey pck
    match pckKey with
    | none => raise .attestationFailed (lit "PCK does not carry an elliptic-curve public key")
    | some pckKey => do
      catchBuiltin signatureErrors (verifyEcdsa pki pckKey quote.qeReportSignature quote.qeReport) fun _ =>
        raise .attestationFailed (lit "QE report signature failed to verify")
      let expectedBinding := Crypto.sha256 (quote.attestationKey ++ quote.qeAuthData)
      let qeReportData := slice quote.qeReport qeReportDataOffset (qeReportDataOffset + 64)
      if slice qeReportData 0 32 ≠ expectedBinding then
        raise .attestationFailed (lit "attestation key is not the one the QE report vouched for")
      else do
        catchBuiltin signatureErrors
          (do
            let key ← p256Key pki quote.attestationKey
            verifyEcdsa pki key quote.quoteSignature quote.signedBody)
          fun _ => raise .attestationFailed (lit "TDX quote signature failed to verify")
        if expectedMrtd.any fun mrtd => quote.measurement ≠ mrtd then
          raise .attestationFailed (lit "MRTD does not match the expected value")
            (some (lit "got " ++ hex quote.measurement))
        else if expectedReportData.any fun reportData => quote.reportData ≠ reportData then
          raise .attestationFailed (lit "report data does not match the expected binding")
        else .ok quote

/-- `verify_tdx_quote` -/
def verifyTdxQuote (quoteBytes : Bytes) (trustedRoots : List pki.Cert)
    (expectedMrtd expectedReportData : Option Bytes) : Result (TdxQuote pki.Cert) := do
  let quote ← TdxQuote.parse pki.loadPem quoteBytes
  appraise pki quote trustedRoots expectedMrtd expectedReportData

end

/-! ## The chain of custody -/

/-- The links from a root to the measurement and the report data that are returned. -/
structure Custody [Crypto] (pki : TdxPki) (Reaches : (chain trustedRoots : List pki.Cert) → Prop) (quoteBytes : Bytes)
    (trustedRoots : List pki.Cert) (expectedMrtd expectedReportData : Option Bytes) (q : TdxQuote pki.Cert) : Prop where
  teeType : q.teeType = teeTypeTdx
  chain : Reaches q.pckChain trustedRoots
  qeReport : ∃ pck rest key, q.pckChain = pck :: rest ∧ pki.publicKey pck = .ok (some key) ∧ q.qeReport.length = 384 ∧
    verifyEcdsa pki key q.qeReportSignature q.qeReport = .ok ()
  binding : slice (slice q.qeReport qeReportDataOffset (qeReportDataOffset + 64)) 0 32 =
    Crypto.sha256 (q.attestationKey ++ q.qeAuthData)
  attestationKey : q.attestationKey.length = 64
  quote : ∃ key, p256Key pki q.attestationKey = .ok key ∧ verifyEcdsa pki key q.quoteSignature q.signedBody = .ok ()
  signedBody : q.signedBody = slice quoteBytes 0 632 ∧ q.signedBody.length = 632
  measurement : q.measurement = slice q.signedBody mrtdOffset (mrtdOffset + mrtdLen)
  reportData : q.reportData = slice q.signedBody reportDataOffset (reportDataOffset + TdxQuote.reportDataLen)
  expected : (∀ mrtd ∈ expectedMrtd, q.measurement = mrtd) ∧ ∀ data ∈ expectedReportData, q.reportData = data

/-- Two quotes have the same vouchers: the signed QE report and the signed body. -/
structure SameVouchers {Cert : Type} (q q' : TdxQuote Cert) : Prop where
  qeReport : q.qeReport = q'.qeReport
  signedBody : q.signedBody = q'.signedBody

/-- The PCKs of two quotes have one key. -/
def SamePck (pki : TdxPki) (q q' : TdxQuote pki.Cert) : Prop :=
  ∃ pck rest pck' rest', q.pckChain = pck :: rest ∧ q'.pckChain = pck' :: rest' ∧ pki.publicKey pck = pki.publicKey pck'

/-- Two quotes have the same vouchers, or signatures that verified for these: under one PCK, and for the quote under the
attestation key that the QE report names. -/
structure SameSignatures (pki : TdxPki) (q q' : TdxQuote pki.Cert) : Prop where
  qeReport : q.qeReport = q'.qeReport ∨ SamePck pki q q' ∧ q.qeReportSignature = q'.qeReportSignature
  signedBody : q.signedBody = q'.signedBody ∨ q.quoteSignature = q'.quoteSignature

/-- Two quotes agree in what is vouched for. -/
structure SameVouched {Cert : Type} (q q' : TdxQuote Cert) : Prop where
  attestationKey : q.attestationKey = q'.attestationKey
  qeAuthData : q.qeAuthData = q'.qeAuthData
  measurement : q.measurement = q'.measurement
  reportData : q.reportData = q'.reportData

/-- The quote is one whose leaf is read: it parses as a TDX quote and its chain is accepted. -/
def ReadsLeaf (pki : TdxPki) (quoteBytes : Bytes) (trustedRoots : List pki.Cert) (q : TdxQuote pki.Cert) : Prop :=
  TdxQuote.parse pki.loadPem quoteBytes = .ok q ∧ q.teeType = teeTypeTdx ∧
    pki.verifyChain q.pckChain trustedRoots = .ok ()

section
variable {pki : TdxPki} {Reaches : (chain trustedRoots : List pki.Cert) → Prop}

theorem verifyEcdsa_spec (h : pki.Documented Reaches) (key : pki.Key) (sigRs message : Bytes) :
    Spec (verifyEcdsa pki key sigRs message) (fun _ => verifyEcdsa pki key sigRs message = .ok ())
      fun e => e.isClass .attestationFailed ∨ ∃ k t, e = .builtin k t ∧ signatureErrors k = true := by
  cases hverify : verifyEcdsa pki key sigRs message with
  | ok u => exact rfl
  | error e => exact .inr ((h.verify _ _ _ _).of_error hverify)

/-- The signature of the QE report. -/
theorem qeReport_spec (h : pki.Documented Reaches) (key : pki.Key) (sigRs message : Bytes) (text : Str) :
    Spec (catchBuiltin signatureErrors (verifyEcdsa pki key sigRs message) fun _ => raise .attestationFailed text)
      (fun _ => verifyEcdsa pki key sigRs message = .ok ()) (Exc.isClass .attestationFailed) :=
  catchBuiltin_spec (verifyEcdsa_spec h key sigRs message) fun _ => rfl

/-- The signature of the quote, by the key that is read from it. -/
theorem quoteSignature_spec (h : pki.Documented Reaches) (rawXy sigRs message : Bytes) (text : Str) :
    Spec (catchBuiltin signatureErrors (p256Key pki rawXy >>= fun key => verifyEcdsa pki key sigRs message) fun _ =>
        raise .attestationFailed text)
      (fun _ => ∃ key, p256Key pki rawXy = .ok key ∧ verifyEcdsa pki key sigRs message = .ok ())
      (Exc.isClass .attestationFailed) := by
  refine catchBuiltin_spec ?_ fun _ => rfl
  cases hkey : p256Key pki rawXy with
  | error e =>
    obtain ⟨k, t, rfl, hk⟩ := (h.fromEncodedPoint _).of_error hkey
    exact .inr ⟨k, t, rfl, by simp [signatureErrors, hk]⟩
  | ok key => exact (verifyEcdsa_spec h key sigRs message).mono (fun _ hverify => ⟨key, rfl, hverify⟩) fun _ he => he

theorem verifyCertChain_spec (chain roots : List pki.Cert) :
    Spec (verifyCertChain pki chain roots) (fun _ => pki.verifyChain chain roots = .ok ())
      (Exc.isClass .attestationFailed) := by
  unfold verifyCertChain
  split
  · rename_i hchain
    exact hchain
  · exact rfl

/-- Where the chain has no leaf to read, reading it raises what is not of this program. -/
theorem leafKey_spec (h : pki.Documented Reaches) (chain : List pki.Cert) :
    Spec (leafOf pki chain >>= pki.publicKey)
      (fun key => ∃ pck rest, chain = pck :: rest ∧ pki.publicKey pck = .ok key)
      fun e => ¬ pki.LeafKeyLoads chain ∧ ¬ e.isClass .attestationFailed := by
  cases chain with
  | nil =>
    refine ⟨fun hloads => ?_, id⟩
    obtain ⟨_, _, _, hchain, _⟩ := hloads
    cases hchain
  | cons pck rest =>
    rw [leafOf, ok_bind]
    cases hkey : pki.publicKey pck with
    | ok key => exact ⟨pck, rest, rfl, hkey⟩
    | error e =>
      obtain ⟨k, t, rfl⟩ := (h.publicKey pck).of_error hkey
      refine ⟨fun hloads => ?_, id⟩
      obtain ⟨_, _, _, hchain, hloads⟩ := hloads
      cases hchain
      rw [hkey] at hloads
      cases hloads

/-- What is returned of the header and the TD report is cut from the signed body, and that from the blob. -/
theorem signedBody_of_parse (h : PemLoader pki.loadPem) {quoteBytes : Bytes} {q : TdxQuote pki.Cert}
    (hparse : TdxQuote.parse pki.loadPem quoteBytes = .ok q) :
    q.signedBody = slice quoteBytes 0 632 ∧ q.measurement = slice q.signedBody mrtdOffset (mrtdOffset + mrtdLen) ∧
      q.reportData = slice q.signedBody reportDataOffset (reportDataOffset + TdxQuote.reportDataLen) := by
  obtain ⟨l, padding, chain, rfl, _, rfl⟩ := (TdxQuote.parse_spec h quoteBytes).of_ok hparse
  have hbody : At (l.encode ++ padding) 0 l.body.encode := at_zero.mpr ⟨_, by rw [QuoteLayout.encode, List.append_assoc]⟩
  have hwhole : At l.body.encode 0 l.body.encode := at_zero.mpr ⟨[], (List.append_nil _).symm⟩
  obtain ⟨_, _, _, hmrtd, _, hreport⟩ := BodyLayout.at_encode.mp hwhole
  have hlength : l.body.encode.length = 632 := l.body.length_encode
  refine ⟨(hbody.slice_eq (by rw [hlength])).symm, (hmrtd.slice_eq ?_).symm, (hreport.slice_eq ?_).symm⟩
  · rw [l.body.mrtd_length]
  · rw [l.body.reportData_length]

variable [Crypto]

/-- **What the checks establish**, of a quote that was parsed from the blob. -/
theorem appraise_spec (h : pki.Documented Reaches) {quoteBytes : Bytes} {q : TdxQuote pki.Cert}
    (hparse : TdxQuote.parse pki.loadPem quoteBytes = .ok q) (roots : List pki.Cert) (expectedMrtd expectedData : Option Bytes) :
    Spec (appraise pki q roots expectedMrtd expectedData)
      (fun q' => q' = q ∧ Custody pki Reaches quoteBytes roots expectedMrtd expectedData q)
      fun e => e.isClass .attestationFailed ∨ ReadsLeaf pki quoteBytes roots q ∧ ¬ pki.LeafKeyLoads q.pckChain := by
  unfold appraise
  split
  · exact .inl rfl
  rename_i htype
  refine ((verifyCertChain_spec _ _).mono (fun _ hok => hok) fun _ he => .inl he).bind fun _ hchain => ?_
  rw [← bind_assoc]
  refine ((leafKey_spec h _).mono (fun _ hok => hok) fun _ he => ?_).bind fun pckKey hkey => ?_
  · exact .inr ⟨⟨hparse, not_not.mp htype, hchain⟩, he.1⟩
  -- behind the key of the leaf every failure is refused
  refine Spec.mono ?_ (fun _ hok => hok) fun _ he => Or.inl he
  obtain ⟨pck, rest, hpck, hkey⟩ := hkey
  cases pckKey with
  | none => exact rfl
  | some pckKey =>
    refine (qeReport_spec h _ _ _ _).bind fun _ hqe => ?_
    dsimp only
    split
    · exact rfl
    rename_i hbinding
    refine (quoteSignature_spec h _ _ _ _).bind fun _ hquote => ?_
    split
    · exact rfl
    rename_i hmrtd
    split
    · exact rfl
    rename_i hdata
    obtain ⟨hsigned, hmeasurement, hreport⟩ := signedBody_of_parse h.loadPem hparse
    obtain ⟨l, _, chain, _, _, hlayout⟩ := (TdxQuote.parse_spec h.loadPem quoteBytes).of_ok hparse
    have hfull : q.FullLength := hlayout ▸ l.quote_fullLength chain
    refine ⟨rfl, not_not.mp htype, h.verifyChain _ _ hchain, ⟨pck, rest, pckKey, hpck, hkey, hfull.qeReport, hqe⟩,
      not_not.mp hbinding, hfull.attestationKey, hquote, ⟨hsigned, hfull.signedBody⟩, hmeasurement, hreport, ?_, ?_⟩
    · intro mrtd hmem
      obtain rfl := hmem
      simpa using hmrtd
    · intro data hmem
      obtain rfl := hmem
      simpa using hdata

/-- A leaf that cannot be read is not refused. -/
theorem appraise_unloadable (h : pki.Documented Reaches) {q : TdxQuote pki.Cert} {roots : List pki.Cert}
    (expectedMrtd expectedData : Option Bytes) (htype : q.teeType = teeTypeTdx)
    (hchain : pki.verifyChain q.pckChain roots = .ok ()) (hleaf : ¬ pki.LeafKeyLoads q.pckChain) :
    ∃ e, appraise pki q roots expectedMrtd expectedData = .error e ∧ ¬ e.isClass .attestationFailed := by
  have hverified : verifyCertChain pki q.pckChain roots = .ok () := by rw [verifyCertChain, hchain]
  rw [appraise, if_neg (not_not.mpr htype), hverified, ok_bind, ← bind_assoc]
  cases hkey : leafOf pki q.pckChain >>= pki.publicKey with
  | error e => exact ⟨e, rfl, ((leafKey_spec h _).of_error hkey).2⟩
  | ok key =>
    obtain ⟨pck, rest, hpck, hloads⟩ := (leafKey_spec h _).of_ok hkey
    exact absurd ⟨pck, rest, key, hpck, hloads⟩ hleaf

/-- A quote whose links hold is accepted. -/
theorem appraise_ok {q : TdxQuote pki.Cert} {roots rest : List pki.Cert} {pck : pki.Cert} {pckKey key : pki.Key}
    (htype : q.teeType = teeTypeTdx) (hchain : verifyCertChain pki q.pckChain roots = .ok ())
    (hpck : q.pckChain = pck :: rest) (hpublic : pki.publicKey pck = .ok (some pckKey))
    (hqe : verifyEcdsa pki pckKey q.qeReportSignature q.qeReport = .ok ())
    (hbinding : slice (slice q.qeReport qeReportDataOffset (qeReportDataOffset + 64)) 0 32 =
      Crypto.sha256 (q.attestationKey ++ q.qeAuthData))
    (hkey : p256Key pki q.attestationKey = .ok key) (hquote : verifyEcdsa pki key q.quoteSignature q.signedBody = .ok ()) :
    appraise pki q roots none none = .ok q := by
  rw [appraise, if_neg (not_not.mpr htype), hchain, ok_bind, hpck, leafOf, ok_bind, hpublic, ok_bind]
  simp only [hqe, catchBuiltin, ok_bind, hkey, hquote]
  rw [if_neg (not_not.mpr hbinding)]
  rfl

theorem verifyTdxQuote_spec (h : pki.Documented Reaches) (quoteBytes : Bytes) (roots : List pki.Cert)
    (expectedMrtd expectedData : Option Bytes) :
    Spec (verifyTdxQuote pki quoteBytes roots expectedMrtd expectedData)
      (Custody pki Reaches quoteBytes roots expectedMrtd expectedData)
      fun e => e.isClass .attestationFailed ∨ ∃ q, ReadsLeaf pki quoteBytes roots q ∧ ¬ pki.LeafKeyLoads q.pckChain := by
  rw [verifyTdxQuote]
  cases hparse : TdxQuote.parse pki.loadPem quoteBytes with
  | error e => exact .inl ((TdxQuote.parse_spec h.loadPem quoteBytes).of_error hparse)
  | ok q =>
    refine (appraise_spec h hparse roots expectedMrtd expectedData).mono (fun q' hq' => ?_) fun e he => ?_
    · obtain ⟨rfl, hcustody⟩ := hq'
      exact hcustody
    · exact he.imp id fun hleaf => ⟨q, hleaf⟩

/-- **When every failure is refused**: the leaf of an accepted chain can be read. -/
theorem verifyTdxQuote_refuses_iff (h : pki.Documented Reaches) (quoteBytes : Bytes) (roots : List pki.Cert)
    (expectedMrtd expectedData : Option Bytes) :
    (∀ e, verifyTdxQuote pki quoteBytes roots expectedMrtd expectedData = .error e → e.isClass .attestationFailed) ↔
      ∀ q, ReadsLeaf pki quoteBytes roots q → pki.LeafKeyLoads q.pckChain := by
  refine ⟨fun hclass q hq => ?_, fun hloads e he => ?_⟩
  · obtain ⟨hparse, htype, hchain⟩ := hq
    by_contra hleaf
    obtain ⟨e, he, hforeign⟩ := appraise_unloadable h expectedMrtd expectedData htype hchain hleaf
    refine hforeign (hclass e ?_)
    rw [verifyTdxQuote, hparse, ok_bind, he]
  · rcases (verifyTdxQuote_spec h quoteBytes roots expectedMrtd expectedData).of_error he with hclass | hleaf
    · exact hclass
    · obtain ⟨q, hq, hunloadable⟩ := hleaf
      exact absurd (hloads q hq) hunloadable

section
variable {blob blob' : Bytes} {roots roots' : List pki.Cert} {mrtd mrtd' data data' : Option Bytes}
  {q q' : TdxQuote pki.Cert}

/-- One QE report vouches for one key and one authentication data. -/
theorem Custody.vouchedKey_eq (hinj : Function.Injective Crypto.sha256) (h : Custody pki Reaches blob roots mrtd data q)
    (h' : Custody pki Reaches blob' roots' mrtd' data' q') (hreport : q.qeReport = q'.qeReport) :
    q.attestationKey = q'.attestationKey ∧ q.qeAuthData = q'.qeAuthData := by
  have hbound : Crypto.sha256 (q.attestationKey ++ q.qeAuthData) = Crypto.sha256 (q'.attestationKey ++ q'.qeAuthData) := by
    rw [← h.binding, ← h'.binding, hreport]
  exact List.append_inj (hinj hbound) (h.attestationKey.trans h'.attestationKey.symm)

/-- The same vouchers stand behind the same key, authentication data and fields. -/
theorem Custody.sameVouched (hinj : Function.Injective Crypto.sha256) (h : Custody pki Reaches blob roots mrtd data q)
    (h' : Custody pki Reaches blob' roots' mrtd' data' q') (hsame : SameVouchers q q') : SameVouched q q' := by
  obtain ⟨hkey, hauth⟩ := h.vouchedKey_eq hinj h' hsame.qeReport
  exact ⟨hkey, hauth, by rw [h.measurement, h'.measurement, hsame.signedBody],
    by rw [h.reportData, h'.reportData, hsame.signedBody]⟩

/-- Ideal signatures that are the same stand under the same vouchers: first the QE report, by the PCK, and then, by the key
that the report names, the body. -/
theorem Custody.sameVouchers (hideal : pki.IdealSignature) (hinj : Function.Injective Crypto.sha256)
    (h : Custody pki Reaches blob roots mrtd data q) (h' : Custody pki Reaches blob' roots' mrtd' data' q')
    (hsame : SameSignatures pki q q') : SameVouchers q q' := by
  have hreport : q.qeReport = q'.qeReport := by
    rcases hsame.qeReport with hreport | hsigned
    · exact hreport
    obtain ⟨⟨pck, rest, pck', rest', hpck, hpck', hkeys⟩, hsig⟩ := hsigned
    obtain ⟨_, _, key, hchain, hkey, _, hverify⟩ := h.qeReport
    obtain ⟨_, _, key', hchain', hkey', _, hverify'⟩ := h'.qeReport
    obtain ⟨rfl, rfl⟩ := List.cons.inj (hpck.symm.trans hchain)
    obtain ⟨rfl, rfl⟩ := List.cons.inj (hpck'.symm.trans hchain')
    obtain rfl : key = key' := by simpa [hkey, hkey'] using hkeys
    rw [← hsig] at hverify'
    exact hideal _ _ _ _ _ hverify hverify'
  refine ⟨hreport, ?_⟩
  rcases hsame.signedBody with hbody | hsig
  · exact hbody
  obtain ⟨key, hkey, hverify⟩ := h.quote
  obtain ⟨key', hkey', hverify'⟩ := h'.quote
  rw [← (h.vouchedKey_eq hinj h' hreport).1, hkey] at hkey'
  obtain rfl := Except.ok.inj hkey'
  rw [← hsig] at hverify'
  exact hideal _ _ _ _ _ hverify hverify'

end

/-- **The appraisal is a closed chain of custody.** A quote that is returned has every link; every failure is refused with
`AttestationFailed`, if and only if the key of the leaf can be read where a chain is accepted; and with a hash without
collisions, quotes that the same vouchers stand behind agree in what they vouch for, whatever else the two blobs hold, as do
with ideal signatures quotes that carry the same signatures. -/
theorem tdxAppraisal_custody (h : pki.Documented Reaches) :
    (∀ quoteBytes roots mrtd data,
      (∀ q, verifyTdxQuote pki quoteBytes roots mrtd data = .ok q → Custody pki Reaches quoteBytes roots mrtd data q) ∧
      ((∀ e, verifyTdxQuote pki quoteBytes roots mrtd data = .error e → e.isClass .attestationFailed) ↔
        ∀ q, ReadsLeaf pki quoteBytes roots q → pki.LeafKeyLoads q.pckChain)) ∧
    (Function.Injective Crypto.sha256 →
      ∀ blob blob' roots roots' mrtd mrtd' data data' q q', verifyTdxQuote pki blob roots mrtd data = .ok q →
        verifyTdxQuote pki blob' roots' mrtd' data' = .ok q' →
        (SameVouchers q q' → SameVouched q q') ∧
        (pki.IdealSignature → SameSignatures pki q q' → SameVouched q q')) := by
  refine ⟨fun blob roots mrtd data => ⟨fun q => (verifyTdxQuote_spec h blob roots mrtd data).of_ok,
    verifyTdxQuote_refuses_iff h blob roots mrtd data⟩, ?_⟩
  intro hinj blob blob' roots roots' mrtd mrtd' data data' q q' hq hq'
  have hcustody := (verifyTdxQuote_spec h blob roots mrtd data).of_ok hq
  have hcustody' := (verifyTdxQuote_spec h blob' roots' mrtd' data').of_ok hq'
  refine ⟨hcustody.sameVouched hinj hcustody', fun hideal hsame => ?_⟩
  exact hcustody.sameVouched hinj hcustody' (hcustody.sameVouchers hideal hinj hcustody' hsame)

end

/-! ## An accepted quote -/

/-- The attestation key and the authentication data of `custodyQuote`. -/
def vouchedKey : Bytes := List.replicate 64 2 ++ [5, 6]

/-- A hash without collisions that gives zeros for `vouchedKey`. -/
@[reducible] def Crypto.vouchedDigest : Crypto :=
  { Crypto.toy with sha256 := fun b => if b = vouchedKey then List.replicate 32 0 else 1 :: b }

theorem vouchedDigest_injective : Function.Injective (@Crypto.sha256 Crypto.vouchedDigest) := by
  intro a b h
  simp only [Crypto.sha256] at h
  split at h <;> split at h
  · rename_i ha hb
    rw [ha, hb]
  · simp [List.replicate] at h
  · simp [List.replicate] at h
  · exact List.tail_eq_of_cons_eq h

/-- A signature of 64 octets. -/
def sigOf (r : Nat) : Bytes := toBig 32 r ++ toBig 32 0

theorem length_sigOf (r : Nat) : (sigOf r).length = 64 := by
  rw [sigOf, List.length_append, length_toBig, length_toBig]

theorem ofBig_sigOf {r : Nat} (h : r < 256 ^ 32) : ofBig (slice (sigOf r) 0 32) = r :=
  ((at_toBig h).mp (at_zero.mpr ⟨toBig 32 0, rfl⟩ : At (sigOf r) 0 (toBig 32 r))).2

/-- Certification data whose QE report holds the digest of `vouchedKey`. -/
def custodyCertData : CertDataLayout :=
  { slackCertData with
    qeReport := List.replicate 384 0
    qeReportSignature := sigOf 4
    slack := []
    qeReport_length := List.length_replicate
    qeReportSignature_length := length_sigOf 4 }

def custodySection : SectionLayout :=
  { slackSection with
    quoteSignature := sigOf 1
    certData := custodyCertData
    slack := []
    quoteSignature_length := length_sigOf 1
    certData_lt := by
      rw [CertDataLayout.length_encode]
      decide }

def custodyQuote : QuoteLayout where
  body := slackQuote.body
  sig := custodySection
  sig_lt := by
    rw [SectionLayout.length_encode, custodySection, CertDataLayout.length_encode]
    decide

/-- A chain is accepted whose leaf is a root. -/
def verifyLeaf : (chain trustedRoots : List Bytes) → Except Str Unit
  | [], _ => .error (lit "empty chain")
  | pck :: _, roots => if roots.any fun root => root = pck then .ok () else .error (lit "untrusted root")

/-- The leaf is a root. -/
def LeafTrusted (chain roots : List Bytes) : Prop := ∃ pck rest, chain = pck :: rest ∧ pck ∈ roots

theorem verifyLeaf_ok {chain roots : List Bytes} (h : verifyLeaf chain roots = .ok ()) : LeafTrusted chain roots := by
  cases chain with
  | nil => cases h
  | cons pck rest =>
    rw [verifyLeaf] at h
    split at h
    · rename_i hroot
      obtain ⟨root, hmem, heq⟩ := List.any_eq_true.mp hroot
      obtain rfl : root = pck := of_decide_eq_true heq
      exact ⟨root, rest, rfl, hmem⟩
    · cases h

/-- One signature verifies for the QE report and one for the body. -/
def verifyKnown (r : Nat) (message : Bytes) : Result Unit :=
  if (r = 4 ∧ message = custodyCertData.qeReport) ∨ (r = 1 ∧ message = custodyQuote.body.encode) then .ok ()
  else .error (.builtin .invalidSignature [])

/-- A library of certificates and keys that are texts. -/
def custodyPki : TdxPki where
  Cert := Bytes
  Key := Bytes
  loadPem := loadText
  verifyChain := verifyLeaf
  publicKey cert := .ok (some cert)
  fromEncodedPoint point :=
    if point.length = 65 then .ok point else .error (.builtin .valueError (lit "Unsupported elliptic curve point type"))
  verify _ r _ message := verifyKnown r message

theorem custodyPki_documented : custodyPki.Documented LeafTrusted where
  loadPem := loadText_pemLoader
  verifyChain := fun _ _ => verifyLeaf_ok
  publicKey := fun _ => trivial
  fromEncodedPoint := by
    intro point
    simp only [custodyPki]
    split
    · exact trivial
    · exact ⟨.valueError, _, rfl, rfl⟩
  verify := by
    intro key r s message
    simp only [custodyPki, verifyKnown]
    split
    · exact trivial
    · exact ⟨.invalidSignature, _, rfl, rfl⟩

theorem custodyPki_ideal : custodyPki.IdealSignature := by
  intro key r s message message' h h'
  simp only [custodyPki, verifyKnown] at h h'
  split at h
  · rename_i hknown
    split at h'
    · rename_i hknown'
      rcases hknown with ⟨rfl, rfl⟩ | ⟨rfl, rfl⟩
      · simpa [eq_comm] using hknown'
      · simpa [eq_comm] using hknown'
    · cases h'
  · cases h

theorem verifyEcdsa_custodyPki (key sig message : Bytes) :
    verifyEcdsa custodyPki key sig message = verifyKnown (ofBig (slice sig 0 32)) message := rfl

/-- The quote is accepted, whatever follows it. -/
theorem verify_custodyQuote (padding : Bytes) :
    let _ := Crypto.vouchedDigest
    verifyTdxQuote custodyPki (custodyQuote.encode ++ padding) [[7]] none none = .ok (custodyQuote.quote [[7]]) := by
  intro _
  have hpem : custodyPki.loadPem custodyQuote.sig.certData.chain = .ok [[7]] := rfl
  have hqe : verifyEcdsa custodyPki [7] (sigOf 4) custodyCertData.qeReport = .ok () := by
    rw [verifyEcdsa_custodyPki, ofBig_sigOf (by decide)]
    exact if_pos (.inl ⟨rfl, rfl⟩)
  have hquote : verifyEcdsa custodyPki (0x04 :: List.replicate 64 2) (sigOf 1) custodyQuote.body.encode = .ok () := by
    rw [verifyEcdsa_custodyPki, ofBig_sigOf (by decide)]
    exact if_pos (.inr ⟨rfl, rfl⟩)
  have hbinding : slice (slice custodyCertData.qeReport qeReportDataOffset (qeReportDataOffset + 64)) 0 32 =
      Crypto.sha256 (List.replicate 64 2 ++ [5, 6]) := by
    have hdigest : Crypto.sha256 (List.replicate 64 2 ++ [5, 6]) = List.replicate 32 0 := if_pos rfl
    rw [hdigest]
    rfl
  rw [verifyTdxQuote, TdxQuote.parse_encode custodyQuote padding hpem, ok_bind]
  exact appraise_ok rfl rfl rfl rfl hqe hbinding rfl hquote

/-- Two accepted blobs that differ behind the quote. -/
theorem tdxAppraisal_custody_padded :
    let _ := Crypto.vouchedDigest
    Custody custodyPki LeafTrusted (custodyQuote.encode ++ [0]) [[7]] none none (custodyQuote.quote [[7]]) ∧
      (∀ e, verifyTdxQuote custodyPki (custodyQuote.encode ++ [0]) [[8]] none none = .error e →
        e.isClass .attestationFailed) ∧
      SameVouched (custodyQuote.quote [([7] : Bytes)]) (custodyQuote.quote [([7] : Bytes)]) := by
  intro _
  obtain ⟨happraises, hagree⟩ := tdxAppraisal_custody custodyPki_documented
  obtain ⟨_, hrefuses⟩ := happraises (custodyQuote.encode ++ [0]) [[8]] none none
  refine ⟨(happraises _ _ _ _).1 _ (verify_custodyQuote [0]), hrefuses.mpr fun q hq => ?_, ?_⟩
  · obtain ⟨pck, rest, hchain, _⟩ := verifyLeaf_ok hq.2.2
    exact ⟨pck, rest, some pck, hchain, rfl⟩
  · obtain ⟨_, hsigned⟩ := hagree vouchedDigest_injective _ _ _ _ _ _ _ _ _ _ (verify_custodyQuote [0])
      (verify_custodyQuote [1])
    exact hsigned custodyPki_ideal ⟨.inr ⟨⟨[7], [], [7], [], rfl, rfl, rfl⟩, rfl⟩, .inr rfl⟩

/-! ## A leaf without a key -/

/-- A library that cannot read the key of any certificate. -/
def keylessPki : TdxPki :=
  { custodyPki with
    publicKey := fun _ => .error (.builtin .valueError (lit "ECDSA keys with explicit parameters are unsupported")) }

theorem keylessPki_documented : keylessPki.Documented LeafTrusted where
  loadPem := loadText_pemLoader
  verifyChain := fun _ _ => verifyLeaf_ok
  publicKey := fun _ => ⟨.valueError, _, rfl⟩
  fromEncodedPoint := custodyPki_documented.fromEncodedPoint
  verify := custodyPki_documented.verify

/-- The chain of the quote is accepted; the key of its leaf raises, and that is not refused. -/
theorem tdxAppraisal_keylessLeaf :
    let _ := Crypto.vouchedDigest
    ¬ ∀ (pki : TdxPki) (Reaches : (chain trustedRoots : List pki.Cert) → Prop), pki.Documented Reaches →
      ∀ quoteBytes roots mrtd data e, verifyTdxQuote pki quoteBytes roots mrtd data = .error e →
        e.isClass .attestationFailed := by
  intro _ hclaim
  have hpem : keylessPki.loadPem custodyQuote.sig.certData.chain = .ok [[7]] := rfl
  have hraised : verifyTdxQuote keylessPki (custodyQuote.encode ++ []) [[7]] none none =
      .error (.builtin .valueError (lit "ECDSA keys with explicit parameters are unsupported")) := by
    rw [verifyTdxQuote, TdxQuote.parse_encode custodyQuote [] hpem, ok_bind]
    rfl
  exact hclaim keylessPki LeafTrusted keylessPki_documented _ _ _ _ _ hraised

end Ca2a
